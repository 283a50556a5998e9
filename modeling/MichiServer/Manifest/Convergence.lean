import MichiServer.Manifest.Delta

/-!
# A client of the deltas and the library

When the client of a run of writes and deltas has what the library has. At every moment what it has
under an id is what the library holds there, or a row that tells it is still to be read: written after
the time the client will send, or not yet written at all. A client that fetches no track it does not
have gets a new one from the place of the list only.
-/

namespace MichiServer.Manifest

open MichiServer.Catalog MichiServer.Logic.Trace

/-- Nothing is lost on the way to the client: a write leaves what the deltas need, the rows they read are
written, and later than the answer before, none is deleted that still stands, no more than a query
gives have to be read, and a client that fetches no unknown track has those before its cursor. -/
def SyncEvent.Careful (s : SyncState) : SyncEvent → Prop
  | .change c => c.Careful s.db
  | .record i now database =>
    ∀ change ∈ s.unwritten[i]?, change.Carried → database = true ∧ ∀ t ∈ s.client.since, t < now
  | .restart => ∀ change ∈ s.unwritten, ¬ change.Carried
  | .manifest _ => True
  | .deltaTracks _ =>
    s.client.fetchesUnknown = false → ∀ track ∈ (getAllTracksManifest s.db).zipIdx,
      (track.2 : ℤ) < s.client.cursor → (s.client.tracks track.1.trackId).isSome
  | .deltaChanges _ =>
    ∀ t ∈ s.client.since, (rowsAfter s.journal t).length ≤ 500 ∧
      ∀ row ∈ rowsAfter s.journal t, row.action = "delete" →
        ∀ track ∈ s.db.tracks, row.entityId ≠ .id track.id
  | .answer now => ∀ row ∈ s.late, row.Carried → now < row.createdAt
  | .lost => True

instance (s : SyncState) : (e : SyncEvent) → Decidable (e.Careful s)
  | .change c => inferInstanceAs (Decidable (c.Careful s.db))
  | .record .. => inferInstanceAs (Decidable (∀ _ ∈ _, _ → _ ∧ ∀ _ ∈ _, _))
  | .restart => inferInstanceAs (Decidable (∀ _ ∈ _, _))
  | .manifest _ | .lost => inferInstanceAs (Decidable True)
  | .deltaTracks _ => inferInstanceAs (Decidable (_ → ∀ _ ∈ _, _ → _))
  | .deltaChanges _ => inferInstanceAs (Decidable (∀ _ ∈ _, _ ∧ ∀ _ ∈ _, _ → ∀ _ ∈ _, _))
  | .answer _ => inferInstanceAs (Decidable (∀ _ ∈ _, _ → _))

namespace SyncState

variable {s s' : SyncState}

/-! ## What is still to be read -/

/-- A row that tells what is held under the id is among the given ones, or is still to be written. -/
def Owed (s : SyncState) (rows : List JournalRow) (id : Uuid) : Prop :=
  (∃ change ∈ s.unwritten, Mends s.db change id) ∨ ∃ row ∈ rows, Mends s.db row.toChangeRecord id

/-- What the client has under the id is right, or will be: a row tells it, or the list will. -/
def Right (s : SyncState) (held : Option DeltaEntry) (rows : List JournalRow) (id : Uuid) : Prop :=
  held = entry s.db id ∨ s.Owed rows id ∨ (s.client.fetchesUnknown = false ∧ held = none)

structure Carries (s s' : SyncState) (rows rows' : List JournalRow) : Prop where
  entry : ∀ id, entry s'.db id = entry s.db id ∨ s'.Owed rows' id
  owed : ∀ id, s.Owed rows id → s'.Owed rows' id

variable {rows rows' : List JournalRow} {held : Option DeltaEntry} {id : Uuid} {db : Database}
  {e : DeltaEntry} {journal : List JournalRow} {t : String} {env : SyncEnv}
  {tracks : List DeltaEntry × ℤ} {d : DeltaResponse}

theorem carries_of_kept
    (hentry : ∀ id, Manifest.entry s'.db id = Manifest.entry s.db id ∨ s'.Owed rows' id)
    (hunwritten : ∀ change ∈ s.unwritten, change.Carried →
      change ∈ s'.unwritten ∨ ∃ row ∈ rows', row.toChangeRecord = change)
    (hrows : rows ⊆ rows') : Carries s s' rows rows' := by
  have hmends : ∀ {change id}, Mends s.db change id →
      Mends s'.db change id ∨ s'.Owed rows' id := by
    intro change id ⟨hid, haction⟩
    rcases hentry id with hsame | howed
    · exact .inl ⟨hid, hsame ▸ haction⟩
    · exact .inr howed
  refine ⟨hentry, fun id howed => ?_⟩
  rcases howed with ⟨change, hchange, htells⟩ | ⟨row, hrow, htells⟩
  · rcases hmends htells with htells' | howed
    · rcases hunwritten change hchange htells.carried with hmem | ⟨row, hrow, rfl⟩
      · exact .inl ⟨change, hmem, htells'⟩
      · exact .inr ⟨row, hrow, htells'⟩
    · exact howed
  · rcases hmends htells with htells' | howed
    · exact .inr ⟨row, hrows hrow, htells'⟩
    · exact howed

theorem Carries.told
    (hcarries : Carries s s' rows rows') (h : held = Manifest.entry s.db id ∨ s.Owed rows id) :
    held = Manifest.entry s'.db id ∨ s'.Owed rows' id := by
  rcases h with heq | howed
  · rcases hcarries.entry id with hsame | howed
    · exact .inl (heq.trans hsame.symm)
    · exact .inr howed
  · exact .inr (hcarries.owed id howed)

theorem Right.carried
    (h : s.Right held rows id) (hcarries : Carries s s' rows rows') (hclient : s'.client = s.client) :
    s'.Right held rows' id := by
  rcases or_assoc.mpr h with htold | hunknown
  · exact or_assoc.mp (.inl (hcarries.told htold))
  · exact .inr (.inr (hclient ▸ hunknown))

theorem rowsAfter_subset (h : rows ⊆ rows') (t : String) :
    rowsAfter rows t ⊆ rowsAfter rows' t := by
  intro row hrow
  obtain ⟨hmem, hlater⟩ := List.mem_filter.mp hrow
  exact List.mem_filter.mpr ⟨h hmem, hlater⟩

/-! ## What every careful event keeps -/

/-- What the client has, and what a request of it has read so far, is right or will be. -/
structure Kept (s : SyncState) : Prop where
  late_mem : s.late ⊆ s.journal
  behind : ∀ t, s.client.since = some t → ∀ id,
    s.Right (s.client.tracks id) (rowsAfter s.journal t) id
  manifest : ∀ m, s.request = some (.manifest m) → ∀ id, s.Right (Client.listed m.tracks id) s.late id
  tracksRead : ∀ query tracks, s.request = some (.tracksRead query tracks) →
    ∃ t, s.client.since = some t ∧ query = s.client.query t ∧
      ∀ e ∈ tracks.1, s.Right (some e) (rowsAfter s.journal t) e.trackId
  deleted : ∀ d, s.request = some (.delta d) → ∀ id, .id id ∈ d.deleted →
    none = Manifest.entry s.db id ∨ s.Owed s.late id
  delta : ∀ d, s.request = some (.delta d) → ∀ id, .id id ∈ d.updated ∨ .id id ∈ d.deleted ∨
    s.Right (s.client.put d.added id) s.late id

theorem kept_start (db : Database) (journal : List JournalRow) (fetchesUnknown : Bool) :
    (start db journal fetchesUnknown).Kept where
  late_mem := List.nil_subset _
  behind := fun _ h => nomatch h
  manifest := fun _ h => nomatch h
  tracksRead := fun _ _ h => nomatch h
  deleted := fun _ h => nomatch h
  delta := fun _ h => nomatch h

theorem Kept.served (h : s.Kept) (hclient : s'.client = s.client)
    (hrequest : s'.request = s.request ∨ s'.request = none) (hlateMem : s'.late ⊆ s'.journal)
    (hjournal : ∀ t, s.client.since = some t →
      Carries s s' (rowsAfter s.journal t) (rowsAfter s'.journal t))
    (hlate : Carries s s' s.late s'.late) : s'.Kept where
  late_mem := hlateMem
  behind := by
    intro t ht id
    rw [hclient] at ht ⊢
    exact (h.behind t ht id).carried (hjournal t ht) hclient
  manifest := by
    intro m hm id
    rcases hrequest with hrequest | hrequest <;> rw [hrequest] at hm
    · exact (h.manifest m hm id).carried hlate hclient
    · cases hm
  tracksRead := by
    intro query tracks hread
    rcases hrequest with hrequest | hrequest <;> rw [hrequest] at hread
    · obtain ⟨t, ht, hquery, hadded⟩ := h.tracksRead query tracks hread
      rw [hclient]
      exact ⟨t, ht, hquery, fun e he => (hadded e he).carried (hjournal t ht) hclient⟩
    · cases hread
  deleted := by
    intro d hd id hdeleted
    rcases hrequest with hrequest | hrequest <;> rw [hrequest] at hd
    · exact hlate.told (h.deleted d hd id hdeleted)
    · cases hd
  delta := by
    intro d hd id
    rcases hrequest with hrequest | hrequest <;> rw [hrequest] at hd
    · rw [hclient]
      exact (h.delta d hd id).imp_right fun h => h.imp_right fun h => h.carried hlate hclient
    · cases hd

theorem Kept.change (h : s.Kept) {c : LibraryChange} (hcareful : c.Careful s.db) :
    (s.change c).Kept := by
  unfold SyncState.change
  split
  next db records hperform =>
    have hcarries : ∀ rows, Carries s { s with db := db, unwritten := s.unwritten ++ records } rows rows := by
      intro rows
      refine carries_of_kept (fun id => ?_) (fun change hchange _ => ?_) (List.Subset.refl _)
      · rcases perform_noted hperform hcareful id with hsame | ⟨record, hrecord, htells⟩
        · exact .inl hsame
        · exact .inr (.inl ⟨record, List.mem_append_right _ hrecord, htells⟩)
      · exact .inl (List.mem_append_left _ hchange)
    exact h.served rfl (.inl rfl) h.late_mem (fun _ _ => hcarries _) (hcarries _)
  next _ => exact h

theorem Kept.record (h : s.Kept) {i : ℕ} {now : String} {database : Bool}
    (hcareful : (SyncEvent.record i now database).Careful s) : (s.record i now database).Kept := by
  unfold SyncState.record
  split
  next _ => exact h
  next change hchange =>
    have hother : ∀ other ∈ s.unwritten, other ∈ s.unwritten.eraseIdx i ∨ other = change := by
      intro other hother
      obtain ⟨j, hj⟩ := List.getElem?_of_mem hother
      by_cases heq : j = i
      · rw [heq, hchange] at hj
        exact .inr (Option.some.inj hj).symm
      · exact .inl (List.mem_eraseIdx_iff_getElem?.mpr ⟨j, heq, hj⟩)
    have hwritten := hcareful change hchange
    cases database with
    | true =>
      have hcarries : ∀ {rows rows'}, rows ⊆ rows' →
          (change.Carried → recordChange change now ∈ rows') →
          Carries s { s with
            unwritten := s.unwritten.eraseIdx i
            journal := s.journal ++ [recordChange change now]
            late := s.late ++ [recordChange change now] } rows rows' := by
        intro rows rows' hrows hrow
        refine carries_of_kept (fun id => .inl rfl) (fun other hmem hcarried => ?_) hrows
        rcases hother other hmem with hkept | rfl
        · exact .inl hkept
        · exact .inr ⟨_, hrow hcarried, rfl⟩
      have hlateMem : s.late ++ [recordChange change now] ⊆ s.journal ++ [recordChange change now] :=
        List.append_subset.mpr ⟨List.subset_append_of_subset_left _ h.late_mem,
          List.subset_append_right _ _⟩
      refine h.served rfl (.inl rfl) hlateMem (fun t ht => ?_) ?_
      · refine hcarries (rowsAfter_subset (List.subset_append_left _ _) t) fun hcarried => ?_
        have hlater := (hwritten hcarried).2 t ht
        exact List.mem_filter.mpr ⟨List.mem_append_right _ (List.mem_singleton_self _),
          decide_eq_true hlater⟩
      · grind
    | false =>
      have hcarries : ∀ rows,
          Carries s { s with unwritten := s.unwritten.eraseIdx i } rows rows := by
        intro rows
        refine carries_of_kept (fun id => .inl rfl) (fun other hmem hcarried => ?_)
          (List.Subset.refl _)
        grind
      exact h.served rfl (.inl rfl) h.late_mem (fun _ _ => hcarries _) (hcarries _)

theorem Kept.restart (h : s.Kept) (hcareful : SyncEvent.restart.Careful s) :
    Kept { s with unwritten := [], request := none } := by
  have hcarries : ∀ rows, Carries s { s with unwritten := [], request := none } rows rows := by
    intro rows
    refine carries_of_kept (fun id => .inl rfl) (fun other hmem hcarried => ?_) (List.Subset.refl _)
    exact absurd hcarried (hcareful other hmem)
  exact h.served rfl (.inr rfl) h.late_mem (fun _ _ => hcarries _) (hcarries _)

/-! ## What a request reads -/

theorem mem_manifest :
    e ∈ getAllTracksManifest db ↔ ∃ row ∈ db.tracks, deltaEntry row = e := by
  simp [getAllTracksManifest]

theorem entry_of_mem_manifest (h : e ∈ getAllTracksManifest db) :
    some e = Manifest.entry db e.trackId := by
  obtain ⟨row, hrow, rfl⟩ := mem_manifest.mp h
  exact (entry_of_mem hrow).symm

theorem mem_of_listed {tracks : List DeltaEntry}
    (h : Client.listed tracks id = some e) : e ∈ tracks ∧ e.trackId = id :=
  ⟨List.mem_of_find?_eq_some h, by simpa using List.find?_some h⟩

theorem listed_manifest (db : Database) (id : Uuid) :
    Client.listed (getAllTracksManifest db) id = Manifest.entry db id := by
  cases hlisted : Client.listed (getAllTracksManifest db) id with
  | some e =>
    obtain ⟨hmem, rfl⟩ := mem_of_listed hlisted
    exact entry_of_mem_manifest hmem
  | none =>
    refine (entry_eq_none_iff.mpr fun row hrow hid => ?_).symm
    have hnot := List.find?_eq_none.mp hlisted (deltaEntry row) (mem_manifest.mpr ⟨row, hrow, rfl⟩)
    exact hnot (decide_eq_true hid)

theorem mem_idsOf {action : String} {changes : List JournalRow} {e : EntityId} :
    e ∈ idsOf action changes ↔ ∃ row ∈ changes, row.action = action ∧ row.entityId = e := by
  grind [idsOf]

theorem mem_rowsAfter_of_changes {row : JournalRow}
    (h : row ∈ changesSince journal t) : row ∈ rowsAfter journal t :=
  (List.mem_insertionSort _).mp (List.mem_of_mem_take h)

theorem mem_changesSince {row : JournalRow}
    (hlength : (rowsAfter journal t).length ≤ 500) (h : row ∈ rowsAfter journal t) :
    row ∈ changesSince journal t := by
  rw [changesSince, List.take_of_length_le]
  · exact (List.mem_insertionSort _).mpr h
  · rw [List.length_insertionSort]
    exact hlength

theorem right_of_read (hlength : (rowsAfter s.journal t).length ≤ 500)
    (h : s.Right held (rowsAfter s.journal t) id) :
    .id id ∈ idsOf "upsert" (changesSince s.journal t) ∨
      .id id ∈ idsOf "delete" (changesSince s.journal t) ∨ s.Right held [] id := by
  rcases h with heq | (⟨change, hchange, htells⟩ | ⟨row, hrow, hid, haction⟩) | hunknown
  · exact .inr (.inr (.inl heq))
  · exact .inr (.inr (.inr (.inl (.inl ⟨change, hchange, htells⟩))))
  · have hread := mem_changesSince hlength hrow
    rcases haction with haction | ⟨haction, _⟩
    · exact .inl (mem_idsOf.mpr ⟨row, hread, haction, hid⟩)
    · exact .inr (.inl (mem_idsOf.mpr ⟨row, hread, haction, hid⟩))
  · exact .inr (.inr (.inr (.inr hunknown)))

theorem deltaTracks_ok {query : DeltaQuery} (h : deltaTracks env query db = .ok tracks) :
    env.disabled = false ∧ env.database = none ∧ tracks.1 =
      (((getAllTracksManifest db).zipIdx.filter fun track =>
        (query.cursor.or query.manifestId).getD 0 ≤ (track.2 : ℤ)).map Prod.fst) := by
  obtain ⟨disabled, database⟩ := env
  cases disabled <;> cases database <;> cases h
  exact ⟨rfl, rfl, rfl⟩

theorem sync_manifest_ok {m : ManifestResponse}
    (h : syncManifestHandler env db = .ok m) : m.tracks = getAllTracksManifest db := by
  obtain ⟨disabled, database⟩ := env
  cases disabled <;> cases database <;> cases h
  rfl

theorem deltaChanges_ok {query : DeltaQuery} (hsince : query.since = some t)
    (h : deltaChanges env query tracks journal = .ok d) :
    d.added = tracks.1 ∧ d.deleted = idsOf "delete" (changesSince journal t) ∧
      d.updated = idsOf "upsert" (changesSince journal t) := by
  rw [deltaChanges, hsince] at h
  obtain ⟨disabled, database⟩ := env
  cases database <;> cases h
  exact ⟨rfl, rfl, rfl⟩

theorem Kept.askManifest (h : s.Kept) (env : SyncEnv) : (s.askManifest env).Kept := by
  unfold SyncState.askManifest
  split
  next m hrequest hm =>
    exact {
      late_mem := List.nil_subset _
      behind := h.behind
      manifest := by
        intro m' hm' id
        cases hm'
        rw [sync_manifest_ok hm, listed_manifest]
        exact .inl rfl
      tracksRead := fun _ _ h => nomatch h
      deleted := fun _ h => nomatch h
      delta := fun _ h => nomatch h }
  next _ => exact h

theorem Kept.askDelta (h : s.Kept) (env : SyncEnv) : (s.askDelta env).Kept := by
  unfold SyncState.askDelta
  split
  next t hrequest hsince =>
    split
    next tracks htracks =>
      obtain ⟨_, _, hadded⟩ := deltaTracks_ok htracks
      exact {
        late_mem := h.late_mem
        behind := h.behind
        manifest := fun _ h => nomatch h
        tracksRead := by
          intro query tracks' hread
          cases hread
          refine ⟨t, hsince, rfl, fun e he => .inl ?_⟩
          grind [entry_of_mem_manifest]
        deleted := fun _ h => nomatch h
        delta := fun _ h => nomatch h }
    next _ => exact h
  next _ => exact h

theorem Kept.readChanges (h : s.Kept)
    (hcareful : (SyncEvent.deltaChanges env).Careful s) : (s.readChanges env).Kept := by
  unfold SyncState.readChanges
  split
  next query tracks hrequest =>
    obtain ⟨t, hsince, rfl, hadded⟩ := h.tracksRead query tracks hrequest
    obtain ⟨hlength, hdeleted⟩ := hcareful t hsince
    split
    next d hd =>
      obtain ⟨hdAdded, hdDeleted, hdUpdated⟩ := deltaChanges_ok rfl hd
      exact {
        late_mem := List.nil_subset _
        behind := h.behind
        manifest := fun _ h => nomatch h
        tracksRead := fun _ _ h => nomatch h
        deleted := by
          intro d' hd' id hmem
          cases hd'
          rw [hdDeleted] at hmem
          obtain ⟨row, hrow, haction, hid⟩ := mem_idsOf.mp hmem
          refine .inl (entry_eq_none_iff.mpr fun track htrack heq => ?_).symm
          grind [mem_rowsAfter_of_changes]
        delta := by
          intro d' hd' id
          cases hd'
          rw [hdUpdated, hdDeleted, hdAdded, Client.put]
          apply right_of_read hlength
          cases hlisted : Client.listed tracks.1 id with
          | none => exact h.behind t hsince id
          | some e =>
            grind [mem_of_listed] }
    next _ =>
      have hcarries : ∀ rows, Carries s { s with request := none } rows rows :=
        fun _ => ⟨fun _ => .inl rfl, fun _ h => h⟩
      exact h.served rfl (.inr rfl) h.late_mem (fun _ _ => hcarries _) (hcarries _)
  next _ => exact h

theorem Right.answered {now : String} {client : Client}
    (h : s.Right held s.late id) (hlate : s.late ⊆ s.journal)
    (hcareful : (SyncEvent.answer now).Careful s)
    (hclient : client.fetchesUnknown = s.client.fetchesUnknown) :
    Right { s with client, request := none } held (rowsAfter s.journal now) id := by
  rcases h with heq | (⟨change, hchange, htells⟩ | ⟨row, hrow, htells⟩) | ⟨hunknown, hnone⟩
  · exact .inl heq
  · exact .inr (.inl (.inl ⟨change, hchange, htells⟩))
  · refine .inr (.inl (.inr ⟨row, List.mem_filter.mpr ⟨hlate hrow, ?_⟩, htells⟩))
    exact decide_eq_true (hcareful row hrow htells.carried)
  · exact .inr (.inr ⟨hclient.trans hunknown, hnone⟩)

theorem Kept.right_of_delta (h : s.Kept) (hrequest : s.request = some (.delta d))
    (now : String) (id : Uuid) :
    s.Right ((s.client.takeDelta (Manifest.entry s.db) d now).tracks id) s.late id := by
  simp only [Client.takeDelta]
  split
  next hdeleted => exact or_assoc.mp (.inl (h.deleted d hrequest id hdeleted))
  next hdeleted =>
    rw [Client.refresh]
    split
    next _ => exact .inl rfl
    next hkept =>
      rcases h.delta d hrequest id with hupdated | hmem | hright
      · rw [not_and_or, not_or] at hkept
        have hunknown := hkept.resolve_left (not_not.mpr hupdated)
        rw [Bool.not_eq_true, Bool.not_eq_true, Option.isSome_eq_false_iff, Option.isNone_iff_eq_none]
          at hunknown
        exact .inr (.inr hunknown)
      · exact absurd hmem hdeleted
      · exact hright

theorem Kept.answer (h : s.Kept) {now : String} (hcareful : (SyncEvent.answer now).Careful s) :
    (s.answer now).Kept := by
  unfold SyncState.answer
  split
  next m hrequest =>
    exact {
      late_mem := h.late_mem
      behind := by
        intro t ht id
        cases ht
        exact (h.manifest m hrequest id).answered h.late_mem hcareful rfl
      manifest := fun _ h => nomatch h
      tracksRead := fun _ _ h => nomatch h
      deleted := fun _ h => nomatch h
      delta := fun _ h => nomatch h }
  next d hrequest =>
    exact {
      late_mem := h.late_mem
      behind := by
        intro t ht id
        cases ht
        exact (h.right_of_delta hrequest now id).answered h.late_mem hcareful rfl
      manifest := fun _ h => nomatch h
      tracksRead := fun _ _ h => nomatch h
      deleted := fun _ h => nomatch h
      delta := fun _ h => nomatch h }
  next _ => exact h

theorem Kept.step (h : s.Kept) {e : SyncEvent} (hcareful : e.Careful s) : (s.step e).Kept := by
  cases e with
  | change c => exact h.change hcareful
  | record i now database => exact h.record hcareful
  | restart => exact h.restart hcareful
  | manifest env => exact h.askManifest env
  | deltaTracks env => exact h.askDelta env
  | deltaChanges env => exact h.readChanges hcareful
  | answer now => exact h.answer hcareful
  | lost =>
    have hcarries : ∀ rows, Carries s { s with request := none } rows rows :=
      fun _ => ⟨fun _ => .inl rfl, fun _ h => h⟩
    exact h.served rfl (.inr rfl) h.late_mem (fun _ _ => hcarries _) (hcarries _)

/-! ## The last delta -/

theorem not_owed (hwritten : s.unwritten = []) (id : Uuid) : ¬ s.Owed [] id := by
  intro howed
  rcases howed with ⟨change, hchange, _⟩ | ⟨row, hrow, _⟩
  · rw [hwritten] at hchange
    cases hchange
  · cases hrow

theorem put_isSome (hcareful : (SyncEvent.deltaTracks {}).Careful s)
    (hunknown : s.client.fetchesUnknown = false)
    (htracks : deltaTracks {} (s.client.query t) s.db = .ok tracks) {row : Track}
    (hrow : row ∈ s.db.tracks) : (s.client.put tracks.1 row.id).isSome := by
  obtain ⟨_, _, hadded⟩ := deltaTracks_ok htracks
  obtain ⟨i, hi⟩ := List.getElem?_of_mem (mem_manifest.mpr ⟨row, hrow, rfl⟩)
  have hmem : (deltaEntry row, i) ∈ (getAllTracksManifest s.db).zipIdx :=
    List.mk_mem_zipIdx_iff_getElem?.mpr hi
  rw [Client.put, Option.isSome_or, Bool.or_eq_true]
  by_cases hbefore : (i : ℤ) < s.client.cursor
  · exact .inr (hcareful hunknown _ hmem hbefore)
  · left
    rw [Client.listed, List.find?_isSome]
    refine ⟨deltaEntry row, ?_, decide_eq_true rfl⟩
    rw [hadded]
    refine List.mem_map.mpr ⟨_, List.mem_filter.mpr ⟨hmem, decide_eq_true ?_⟩, rfl⟩
    exact Int.not_lt.mp hbefore

theorem Kept.settled (h : s.Kept) (hrequest : s.request = some (.delta d))
    (hwritten : s.unwritten = []) (hlate : s.late = [])
    (hlisted : s.client.fetchesUnknown = false → ∀ row ∈ s.db.tracks,
      (s.client.put d.added row.id).isSome) (now : String) :
    (s.answer now).Converged := by
  intro id
  have hanswer : s.answer now =
      { s with client := s.client.takeDelta (Manifest.entry s.db) d now, request := none } := by
    simp only [SyncState.answer, hrequest]
  have howed : ¬ s.Owed s.late id := hlate ▸ not_owed hwritten id
  have hunlisted : s.client.fetchesUnknown = false → s.client.put d.added id = none →
      s.client.put d.added id = Manifest.entry s.db id := by
    intro hunknown hnone
    refine hnone.trans (entry_eq_none_iff.mpr fun row hrow hid => ?_).symm
    grind
  rw [hanswer]
  show (s.client.takeDelta (Manifest.entry s.db) d now).tracks id = Manifest.entry s.db id
  simp only [Client.takeDelta]
  split
  next hdeleted => exact (h.deleted d hrequest id hdeleted).resolve_right howed
  next hdeleted =>
    rw [Client.refresh]
    split
    next _ => rfl
    next hkept =>
      rcases h.delta d hrequest id with hupdated | hmem | heq | hlateOwed | ⟨hunknown, hnone⟩
      · rw [not_and_or, not_or] at hkept
        have hunknown := hkept.resolve_left (not_not.mpr hupdated)
        rw [Bool.not_eq_true, Bool.not_eq_true, Option.isSome_eq_false_iff, Option.isNone_iff_eq_none]
          at hunknown
        exact hunlisted hunknown.1 hunknown.2
      · exact absurd hmem hdeleted
      · exact heq
      · exact absurd hlateOwed howed
      · exact hunlisted hunknown hnone

theorem Kept.converged (h : s.Kept) (hidle : s.request = none) (hwritten : s.unwritten = [])
    {t now : String} (hsince : s.client.since = some t)
    (hcareful : Obeys SyncState.step SyncEvent.Careful s (Manifest.delta now)) :
    (run SyncState.step s (Manifest.delta now)).Converged := by
  obtain ⟨hask, hread, _⟩ := hcareful
  cases htracks : deltaTracks {} (s.client.query t) s.db with
  | error e => cases htracks
  | ok tracks =>
    have hasked : s.askDelta {} = { s with request := some (.tracksRead (s.client.query t) tracks) } := by
      simp only [SyncState.askDelta, hidle, hsince, htracks]
    have hkept := (h.askDelta {}).readChanges hread
    show ((s.askDelta {}).readChanges {}).answer now |>.Converged
    rw [hasked] at hkept ⊢
    refine hkept.settled rfl hwritten rfl (fun hunknown row hrow => ?_) now
    exact put_isSome hask hunknown htracks hrow

end SyncState

open SyncState

/-- The client of a careful run that ends with a delta, after all rows are written, has what the
library has. -/
theorem delta_converges (db : Database) (journal : List JournalRow) (fetchesUnknown : Bool)
    (before : List SyncEvent) (now : String)
    (hcareful : Obeys SyncState.step SyncEvent.Careful (start db journal fetchesUnknown)
      (before ++ delta now))
    (hidle : (run SyncState.step (start db journal fetchesUnknown) before).request = none)
    (hwritten : (run SyncState.step (start db journal fetchesUnknown) before).unwritten = [])
    (hstarted : (run SyncState.step (start db journal fetchesUnknown) before).client.since.isSome) :
    (run SyncState.step (start db journal fetchesUnknown) (before ++ delta now)).Converged := by
  obtain ⟨hbefore, hdelta⟩ := obeys_append_iff.mp hcareful
  obtain ⟨t, hsince⟩ := Option.isSome_iff_exists.mp hstarted
  have hkept := run_invariant (fun _ _ h hcareful => h.step hcareful)
    (kept_start db journal fetchesUnknown) hbefore
  rw [run_append]
  exact hkept.converged hidle hwritten hsince hdelta

/-! ## Runs -/

def track (id : Uuid) (title filePath : String) : Track where
  id := id
  title := some title
  filePath := filePath
  format := .flac
  createdAt := 0
  updatedAt := 0

def library : Database :=
  ⟨⟨[track 1 "one" "/music/b.flac", track 2 "two" "/music/c.flac"], [], [], [], []⟩, by decide +kernel⟩

def oneChange (change : LibraryChange) : List SyncEvent :=
  [.manifest {}, .answer "2025-01-01T00:00:00+00:00", .change change,
    .record 0 "2025-01-01T00:00:01+00:00" true] ++ delta "2025-01-01T00:00:02+00:00"

def afterOne (fetchesUnknown : Bool) (change : LibraryChange) : SyncState :=
  run SyncState.step (start library [] fetchesUnknown) (oneChange change)

/-- A track is deleted and comes back under its id, as a file does that is moved away and back. -/
def afterReturn (fetchesUnknown : Bool) : SyncState :=
  run SyncState.step (start library [] fetchesUnknown)
    ([.manifest {}, .answer "2025-01-01T00:00:00+00:00", .change (.deleteTrack 1),
      .change (.upsertTrack (track 1 "one" "/music/b.flac")),
      .record 0 "2025-01-01T00:00:01+00:00" true, .record 0 "2025-01-01T00:00:01.5+00:00" true] ++
      delta "2025-01-01T00:00:02+00:00")

/-- A track is added at the end, and another one deleted. -/
theorem delta_converges_after_changes :
    (run SyncState.step (start library [] true)
      ([.manifest {}, .answer "2025-01-01T00:00:00+00:00",
        .change (.upsertTrack (track 3 "three" "/music/d.flac")), .change (.deleteTrack 1),
        .record 1 "2025-01-01T00:00:01+00:00" true, .record 0 "2025-01-01T00:00:01.5+00:00" true] ++
        delta "2025-01-01T00:00:02+00:00")).Converged :=
  delta_converges library [] true _ _ (by decide +kernel) (by decide +kernel) (by decide +kernel)
    (by decide +kernel)

/-- A client misses a title that was changed in place and a library that was emptied; it drops a track
that was deleted and is back; and one that fetches no unknown track misses a track added at the front. -/
theorem delta_misses_changes :
    (∀ fetchesUnknown,
      ¬ (afterOne fetchesUnknown (.updateTrack 1 { title := some "other" } 0)).Converged ∧
      ¬ (afterOne fetchesUnknown .deleteAllTracks).Converged ∧
      ¬ (afterReturn fetchesUnknown).Converged) ∧
    ¬ (afterOne false (.upsertTrack (track 3 "three" "/music/a.flac"))).Converged := by
  refine ⟨fun fetchesUnknown => ⟨fun h => ?_, fun h => ?_, fun h => ?_⟩, fun h => ?_⟩
  · exact absurd (h 1) (by cases fetchesUnknown <;> decide +kernel)
  · exact absurd (h 1) (by cases fetchesUnknown <;> decide +kernel)
  · exact absurd (h 1) (by cases fetchesUnknown <;> decide +kernel)
  · exact absurd (h 3) (by decide +kernel)

end MichiServer.Manifest
