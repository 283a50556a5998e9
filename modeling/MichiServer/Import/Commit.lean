import MichiServer.Import.Outlines

/-!
# A commit by itself

A commit with nothing in between, read step by step: what it has done to the library and to the table
of tracks, and what it has to undo where it fails. The compensation is run on three of the exits only,
and it removes what was copied whole; so the steps are taken here with the failures that it does not
meet left out (`careful`), and with the stretch marked over which nothing would undo what is done
(`touches`).
-/

namespace MichiServer.Import

open MichiServer.Files MichiServer.Interleave MichiServer.Text
open MichiServer.Queue (ApiError v1Error)

/-! ## Tracks that are stored -/

namespace TrackTable

def Has (table : TrackTable) (path hash : String) : Prop :=
  ∃ row ∈ table.rows, row.filePath = path ∧ row.contentHash = some hash

variable {table table' : TrackTable} {t : Track} {tracks : List Track} {path hash : String}

theorem upsertTrack_cases (h : table.upsertTrack t = .ok table') :
    (∃ row ∈ table.rows, row.filePath = t.filePath) ∧ table'.rows = table.replace t ∨
      table'.rows = table.rows ++ [t] := by
  grind [upsertTrack]

theorem has_of_upsertTrack (h : table.upsertTrack t = .ok table')
    (hhash : t.contentHash = some hash) : table'.Has t.filePath hash := by
  rcases upsertTrack_cases h with ⟨⟨row, hrow, hpath⟩, heq⟩ | heq <;> rw [Has, heq]
  · refine ⟨_, List.mem_map.mpr ⟨row, hrow, rfl⟩, ?_⟩
    rw [if_pos hpath, hhash]
    exact ⟨rfl, rfl⟩
  · exact ⟨t, List.mem_append_right _ List.mem_cons_self, rfl, hhash⟩

theorem Has.upsertTrack (hhas : table.Has path hash) (h : table.upsertTrack t = .ok table')
    (hsame : t.filePath = path → t.contentHash = some hash) : table'.Has path hash := by
  obtain ⟨old, hold, hpath, hhash⟩ := hhas
  rcases upsertTrack_cases h with ⟨-, heq⟩ | heq <;> rw [Has, heq]
  · refine ⟨_, List.mem_map.mpr ⟨old, hold, rfl⟩, ?_⟩
    grind
  · exact ⟨old, List.mem_append_left _ hold, hpath, hhash⟩

theorem Has.upsertTracks (hhas : table.Has path hash) (h : table.upsertTracks tracks = .ok table')
    (hsame : ∀ t ∈ tracks, t.filePath = path → t.contentHash = some hash) :
    table'.Has path hash := by
  induction tracks generalizing table with
  | nil =>
    cases h
    exact hhas
  | cons t rest ih =>
    rw [TrackTable.upsertTracks] at h
    split at h
    next table₁ hfirst =>
      exact ih (hhas.upsertTrack hfirst (hsame t List.mem_cons_self)) h
        fun u hu => hsame u (List.mem_cons_of_mem _ hu)
    next => cases h

theorem has_of_upsertTracks (h : table.upsertTracks tracks = .ok table') (ht : t ∈ tracks)
    (hsame : ∀ u ∈ tracks, u.filePath = t.filePath → u.contentHash = some hash) :
    table'.Has t.filePath hash := by
  induction tracks generalizing table with
  | nil => cases ht
  | cons first rest ih =>
    have hrest : ∀ u ∈ rest, u.filePath = t.filePath → u.contentHash = some hash :=
      fun u hu => hsame u (List.mem_cons_of_mem _ hu)
    rw [TrackTable.upsertTracks] at h
    split at h
    next table₁ hfirst =>
      rcases List.mem_cons.mp ht with rfl | ht
      · exact (has_of_upsertTrack hfirst (hsame t List.mem_cons_self rfl)).upsertTracks h hrest
      · exact ih h ht hrest
    next => cases h

end TrackTable

/-! ## What a commit is about -/

def Setting.dest (s : Setting) (file : ImportFile) : String :=
  fromUtf8Lossy (join s.finalDir (asBytes file.safeName))

section

variable (s : Setting) (σ : ImportSessionState) (w₀ : ImportWorld)

/-- The library has the file under its name, with the content of its checksum. -/
def HasFile (file : ImportFile) (w : ImportWorld) : Prop :=
  ∃ content, w.library file.safeName = some content ∧ s.computeSha256 content = file.checksum

def Stored (w : ImportWorld) : Prop :=
  ∀ file ∈ σ.files, HasFile s file w ∧ w.tracks.Has (s.dest file) file.checksum

/-- Some file of the session stands in the library with other content, before any of it is committed. -/
def Conflicting : Prop :=
  ∃ file ∈ σ.files, ∃ content, w₀.library file.safeName = some content ∧
    s.computeSha256 content ≠ file.checksum

/-- The session as the requests find it, fit to be committed: it is not committed yet, its manifest is
there and the entry says the same, each of its files is staged whole and will be scanned as audio in a
music path, and no two of them are to be one file. -/
structure Prepared : Prop where
  musicPaths : s.musicPaths ≠ []
  not_committed : w₀.status ≠ some "committed"
  manifest : w₀.staging.bind SessionDir.manifest = some σ
  entry : w₀.sessions = none ∨ w₀.sessions = some σ
  staged : ∀ file ∈ σ.files, ∃ content, w₀.files .staging file.stagingFilename = some content ∧
    s.computeSha256 content = file.checksum
  audio : ∀ file ∈ σ.files, Scanner.isAudioFile (join s.finalDir (asBytes file.safeName))
  named : ∀ file ∈ σ.files, ∀ other ∈ σ.files, s.dest file = s.dest other →
    file.checksum = other.checksum

/-- Nothing of the session is in the library, and unless it is closed it can be committed still. -/
structure Untouched (w : ImportWorld) : Prop where
  library : w.library = w₀.library
  tracks : w.tracks = w₀.tracks
  not_committed : w.status ≠ some "committed"
  staged : ¬ w.terminal → w.staging = w₀.staging ∧ (w.sessions = none ∨ w.sessions = some σ)

/-- Between two requests: nothing of the session is stored, or it is committed and all of it is. -/
def Whole (w : ImportWorld) : Prop :=
  Untouched σ w₀ w ∨ w.status = some "committed" ∧ Stored s σ w

end

/-! ## The failures that nothing makes good -/

/-- What may be drawn for a step: a file is found if it is there, a copy that fails has left nothing, a
removal succeeds, a copied file is scanned, and once something was stored (`touched`) the row is marked
committed. -/
def careful (a : ImportAct) (env : StepEnv) (touched : Bool) : Bool :=
  match a with
  | .exists_ _ _ | .removeFile _ _ | .scan _ _ => env.fails.isNone
  | .copy _ _ _ => env.fails.isNone || env.written.isNone
  | .setImportSessionStatus .committed _ => !touched || env.fails.isNone
  | _ => true

/-- Whether the request has stored something that the row does not tell of, after a step. -/
def touches (touched : Bool) : ImportAct → Bool
  | .copy _ _ _ | .upsertTracks _ => true
  | .setImportSessionStatus .committed _ => false
  | _ => touched

def tracked : Semantics ImportAct ImportAct.Resp StepEnv ImportTick (ImportWorld × Bool) where
  exec i a env w := ((exec i a env w.1).1, (exec i a env w.1).2, touches w.2 a)
  tick t w := (tick t w.1, w.2)

/-- What a request owes that runs by itself: while it has stored nothing, it may stop anywhere. -/
def commitDiscipline (s : Setting) (σ : ImportSessionState) (w₀ : ImportWorld) :
    Discipline ImportAct StepEnv (ImportWorld × Bool) where
  Inv _ := True
  Pre _ _ w := w.2 = false → Whole s σ w₀ w.1
  Ok _ a env w := careful a env w.2 = true
  Rely _ _ w w' := w = w'
  rely_refl _ _ _ := rfl
  rely_trans _ _ _ _ _ h h' := h.trans h'

/-! ## Rules -/

section

variable {s : Setting} {σ : ImportSessionState} {w₀ : ImportWorld}

abbrev Solo {α : Type} (s : Setting) (σ : ImportSessionState) (w₀ : ImportWorld)
    (Q : α → ImportWorld × Bool → Prop) (p : Prog ImportAct.Resp α) (w : ImportWorld × Bool) : Prop :=
  Outline (commitDiscipline s σ w₀) tracked 0 Q p w

variable {α β : Type} {w : ImportWorld × Bool}

theorem commit_step {a : ImportAct} {Q : a.Resp → ImportWorld × Bool → Prop}
    (hpre : w.2 = false → Whole s σ w₀ w.1)
    (h : ∀ env, careful a env w.2 = true →
      Q (exec 0 a env w.1).1 ((exec 0 a env w.1).2, touches w.2 a)) :
    Solo s σ w₀ Q (step a) w := by
  refine Outline.perform fun w' hrely _ => ?_
  cases hrely
  exact ⟨hpre, h⟩

variable {Q : Except ApiError α → ImportWorld × Bool → Prop} {F : α → ImportWorld × Bool → Prop}
  {newly : List String} {done : List (ImportFile × String)}

theorem sure_bind {p : Prog ImportAct.Resp β} {f : β → ImportM α}
    (h : Solo s σ w₀ (fun r w' => Solo s σ w₀ Q (f r).run w') p w) :
    Solo s σ w₀ Q (sure p >>= f).run w :=
  Outline.bind (p := (sure p).run) (Outline.bind h)

theorem sure_step {a : ImportAct} {f : a.Resp → ImportM α}
    (hpre : w.2 = false → Whole s σ w₀ w.1)
    (h : ∀ env, careful a env w.2 = true → Solo s σ w₀ Q (f (exec 0 a env w.1).1).run
      ((exec 0 a env w.1).2, touches w.2 a)) :
    Solo s σ w₀ Q (sure (step a) >>= f).run w :=
  sure_bind (commit_step hpre h)

/-- How a part of a request ends that stores the session: with `F`, or with nothing stored, and with a
conflict only if there was one before. -/
def Ended (s : Setting) (σ : ImportSessionState) (w₀ : ImportWorld)
    (F : α → ImportWorld × Bool → Prop) : Except ApiError α → ImportWorld × Bool → Prop
  | .ok a, w => F a w
  | .error e, w => Whole s σ w₀ w.1 ∧ (e.code = "DESTINATION_CONFLICT" → Conflicting s σ w₀)

theorem ended_bind {G : β → ImportWorld × Bool → Prop}
    {x : ImportM α} {f : α → ImportM β} (hx : Solo s σ w₀ (Ended s σ w₀ F) x.run w)
    (hf : ∀ a w', F a w' → Solo s σ w₀ (Ended s σ w₀ G) (f a).run w') :
    Solo s σ w₀ (Ended s σ w₀ G) (x >>= f).run w :=
  Outline.try_bind hx hf fun _ _ h => h

theorem io_last {p : Prog ImportAct.Resp (Except String α)} {onError : String → ApiError}
    (h : Solo s σ w₀ (fun r => Q (r.mapError onError)) p w) : Solo s σ w₀ Q (io onError p).run w := by
  refine Outline.bind (h.mono fun r w' hr => ?_)
  cases r <;> exact hr

theorem io_bind {p : Prog ImportAct.Resp (Except String β)} {f : β → ImportM α}
    {onError : String → ApiError}
    (h : Solo s σ w₀ (fun r w' => match r with
      | .ok b => Solo s σ w₀ Q (f b).run w'
      | .error e => Q (.error (onError e)) w') p w) :
    Solo s σ w₀ Q (io onError p >>= f).run w := by
  refine Outline.bind (p := (io onError p).run) (Outline.bind (h.mono fun r w' hr => ?_))
  cases r <;> exact hr

theorem ended_error {status : ℕ} {code message : String}
    (hw : Whole s σ w₀ w.1) (hcode : code ≠ "DESTINATION_CONFLICT") :
    Ended s σ w₀ F (.error (v1Error status code message)) w :=
  ⟨hw, fun h => absurd h hcode⟩

theorem ended_rejectIf {c : Prop} [Decidable c] {status : ℕ} {code message : String}
    {f : Unit → ImportM α} (hw : Whole s σ w₀ w.1)
    (hcode : code ≠ "DESTINATION_CONFLICT")
    (hf : ¬ c → Solo s σ w₀ (Ended s σ w₀ F) (f ()).run w) :
    Solo s σ w₀ (Ended s σ w₀ F) (rejectIf c (v1Error status code message) >>= f).run w := by
  by_cases hc : c
  · rw [rejectIf, if_pos hc]
    exact ended_error hw hcode
  · rw [rejectIf, if_neg hc]
    exact hf hc

/-! ## The work of a commit -/

/-- A commit at work: `newly` are the names it has put into the library, where there was nothing. -/
structure Working (σ : ImportSessionState) (w₀ : ImportWorld) (newly : List String)
    (w : ImportWorld × Bool) : Prop where
  tracks : w.1.tracks = w₀.tracks
  staging : w.1.staging = w₀.staging
  entry : w.1.sessions = none ∨ w.1.sessions = some σ
  row : w.1.row.isSome
  not_terminal : ¬ w.1.terminal
  fresh : ∀ name ∈ newly, w₀.library name = none
  library : ∀ name ∉ newly, w.1.library name = w₀.library name
  touched : w.2 = false → newly = []

theorem not_committed_of_not_terminal {w : ImportWorld} (h : ¬ w.terminal) :
    w.status ≠ some "committed" := fun hstatus => h (by
  rw [ImportWorld.terminal, hstatus]
  decide)

theorem Working.untouched (h : Working σ w₀ [] w) : Untouched σ w₀ w.1 where
  library := funext fun name => h.library name List.not_mem_nil
  tracks := h.tracks
  not_committed := not_committed_of_not_terminal h.not_terminal
  staged _ := ⟨h.staging, h.entry⟩

theorem Working.whole (h : Working σ w₀ [] w) : Whole s σ w₀ w.1 := .inl h.untouched

theorem Working.pre (h : Working σ w₀ newly w) (htouched : w.2 = false) :
    Whole s σ w₀ w.1 := by
  cases h.touched htouched
  exact h.whole

theorem Working.of_row {w' : ImportWorld} (h : Working σ w₀ newly w)
    (hstep : RowStep w.1 w') (hopen : ¬ w'.terminal) (hlibrary : w'.library = w.1.library)
    (htracks : w'.tracks = w.1.tracks) (hentry : w'.sessions = w.1.sessions) :
    Working σ w₀ newly (w', w.2) where
  tracks := htracks.trans h.tracks
  staging := hstep.staging.trans h.staging
  entry := by rw [hentry]; exact h.entry
  row := hstep.row h.row
  not_terminal := hopen
  fresh := h.fresh
  library name hname := by rw [hlibrary]; exact h.library name hname
  touched := h.touched

theorem Working.set_status {status : ImportState} {message : Option String}
    (h : Working σ w₀ newly w) (hstatus : status.asStr ∉ terminalStatuses) (env : StepEnv) :
    Working σ w₀ newly ((exec 0 (.setImportSessionStatus status message) env w.1).2, w.2) := by
  refine unlessFails_keeps (P := fun w' => Working σ w₀ newly (w', w.2)) h ?_
  refine h.of_row .unlessTerminal (fun hterminal => h.not_terminal ?_) rfl rfl rfl
  grind [terminal_setRow, row]

/-! ### The loops -/

theorem exec_exists {p : Place} {name : String} {env : StepEnv} {w : ImportWorld}
    (hcareful : env.fails.isNone = true) :
    exec 0 (.exists_ p name) env w = ((w.files p name).isSome, w) := by
  simp only [exec, hcareful, Bool.true_and]
  rfl

theorem exec_read {p : Place} {name : String} {env : StepEnv} {w : ImportWorld}
    {content : List UInt8} (h : w.files p name = some content) :
    exec 0 (.read p name) env w = (reads env content, w) := by
  simp only [exec, h]
  rfl

theorem eq_of_reads {env : StepEnv} {a b : α} (h : reads env a = .ok b) : b = a := by
  unfold reads at h
  split at h <;> cases h
  rfl

theorem Prepared.finalPlace (h : Prepared s σ w₀) : s.finalPlace = .library := by
  rw [Setting.finalPlace, if_neg]
  rw [List.isEmpty_iff]
  exact h.musicPaths

/-- The files of the library have the content of their checksums, as far as they are there. -/
def Agrees (s : Setting) (w₀ : ImportWorld) (files : List ImportFile) : Prop :=
  ∀ file ∈ files, ∀ content, w₀.library file.safeName = some content →
    s.computeSha256 content = file.checksum

/-- The check of the files ends with all of them as their checksums say, or with an error. -/
theorem prevalidate_solo (hprepared : Prepared s σ w₀) {files : List ImportFile}
    (hfiles : ∀ file ∈ files, file ∈ σ.files) (hw : Working σ w₀ [] w) :
    Solo s σ w₀ (Ended s σ w₀ fun _ w' => Working σ w₀ [] w' ∧ Agrees s w₀ files)
      (prevalidate s files).run w := by
  induction files with
  | nil => exact ⟨hw, nofun⟩
  | cons file rest ih =>
    have hrest := ih fun file hfile => hfiles file (List.mem_cons_of_mem _ hfile)
    have hgo : (∀ content, w₀.library file.safeName = some content →
        s.computeSha256 content = file.checksum) →
        Solo s σ w₀ (Ended s σ w₀ fun _ w' => Working σ w₀ [] w' ∧ Agrees s w₀ (file :: rest))
          (prevalidate s rest).run w := fun hfile => hrest.mono fun r w' hr => by
      cases r with
      | ok _ => exact ⟨hr.1, List.forall_mem_cons.mpr ⟨hfile, hr.2⟩⟩
      | error e => exact hr
    refine sure_step (a := .exists_ s.finalPlace file.safeName) hw.pre fun env hcareful => ?_
    rw [exec_exists hcareful, hprepared.finalPlace]
    have hlibrary : w.1.files .library file.safeName = w₀.library file.safeName :=
      hw.library _ List.not_mem_nil
    cases hthere : w₀.library file.safeName with
    | none =>
      rw [hlibrary, hthere]
      exact hgo fun content hcontent => nomatch hthere.symm.trans hcontent
    | some content =>
      rw [hlibrary, hthere]
      refine io_bind (commit_step (a := .read .library file.safeName) hw.pre fun env' _ => ?_)
      rw [exec_read (hlibrary.trans hthere)]
      cases hread : reads env' content with
      | error e => exact ended_error hw.whole (by decide)
      | ok existingData =>
        cases eq_of_reads hread
        by_cases hsame : s.computeSha256 content = file.checksum
        · simp only [hsame, ne_eq, not_true_eq_false, if_false]
          refine hgo fun content' hcontent => ?_
          cases hthere.symm.trans hcontent
          exact hsame
        · simp only [hsame, ne_eq, not_false_eq_true, if_true]
          refine sure_step hw.pre fun env'' _ => ?_
          exact ⟨(hw.set_status (by decide) env'').whole, fun _ =>
            ⟨file, hfiles file List.mem_cons_self, content, hthere, hsame⟩⟩

theorem Working.remove {name : String} {rest : List String} (h : Working σ w₀ (name :: rest) w) :
    Working σ w₀ rest (w.1.put .library name none, w.2) where
  tracks := h.tracks
  staging := h.staging
  entry := h.entry
  row := h.row
  not_terminal := h.not_terminal
  fresh other hother := h.fresh other (List.mem_cons_of_mem _ hother)
  library other hother := by
    show w.1.library.put name none other = _
    by_cases heq : other = name
    · subst heq
      rw [h.fresh other List.mem_cons_self, Directory.put, if_pos rfl]
    · rw [Directory.put, if_neg heq]
      exact h.library other (List.not_mem_cons_of_ne_of_not_mem heq hother)
  touched htouched := nomatch h.touched htouched

theorem removeCopied_solo (hprepared : Prepared s σ w₀) (hw : Working σ w₀ newly w) :
    Solo s σ w₀ (Ended s σ w₀ fun _ w' => Working σ w₀ [] w') (removeCopied s newly).run w := by
  induction newly generalizing w with
  | nil => exact hw
  | cons name rest ih =>
    refine sure_step (a := .removeFile s.finalPlace name) hw.pre fun env hcareful => ?_
    have hremoved : exec 0 (.removeFile s.finalPlace name) env w.1 =
        (.ok (), w.1.put .library name none) := by
      rw [hprepared.finalPlace, exec, unlessFails, Option.isNone_iff_eq_none.mp hcareful]
      rfl
    rw [hremoved]
    exact ih hw.remove

theorem remove_and_throw {status : ℕ} {code message : String}
    (hprepared : Prepared s σ w₀) (hw : Working σ w₀ newly w)
    (hcode : code ≠ "DESTINATION_CONFLICT") :
    Solo s σ w₀ (Ended s σ w₀ F) (do
      removeCopied s newly
      throw (v1Error status code message) : ImportM α).run w :=
  ended_bind (removeCopied_solo hprepared hw) fun _ _ hw' => ended_error hw'.whole hcode

theorem Working.touch (h : Working σ w₀ newly w) :
    Working σ w₀ newly (w.1, true) := { h with touched := nofun }

theorem Working.copy {name : String} {content : List UInt8}
    (h : Working σ w₀ newly w) (hfree : w.1.library name = none) (hname : name ∉ newly) :
    Working σ w₀ (newly ++ [name]) (w.1.put .library name (some content), true) where
  tracks := h.tracks
  staging := h.staging
  entry := h.entry
  row := h.row
  not_terminal := h.not_terminal
  fresh other hother := by
    rcases List.mem_append.mp hother with hold | hnew
    · exact h.fresh other hold
    · rw [List.mem_singleton.mp hnew, ← h.library name hname]
      exact hfree
  library other hother := by
    have hne : other ≠ name := fun heq => hother (by rw [heq]; exact List.mem_append_right _ List.mem_cons_self)
    show w.1.library.put name (some content) other = _
    rw [Directory.put, if_neg hne]
    exact h.library other fun hold => hother (List.mem_append_left _ hold)
  touched := nofun

/-- The files copied so far: each is in the library, and `newly` are names of them. -/
structure Copied (s : Setting) (σ : ImportSessionState) (w₀ : ImportWorld) (newly : List String)
    (done : List (ImportFile × String)) (w : ImportWorld × Bool) : Prop where
  working : Working σ w₀ newly w
  files : ∀ entry ∈ done, entry.1 ∈ σ.files ∧ HasFile s entry.1 w.1
  names : ∀ name ∈ newly, ∃ entry ∈ done, entry.1.safeName = name

theorem Copied.present (hprepared : Prepared s σ w₀)
    (h : Copied s σ w₀ newly done w) {file : ImportFile}
    (hfile : file ∈ σ.files) (hagrees : Agrees s w₀ σ.files)
    (hthere : (w.1.library file.safeName).isSome) : HasFile s file w.1 := by
  by_cases hnew : file.safeName ∈ newly
  · obtain ⟨entry, hentry, hname⟩ := h.names _ hnew
    obtain ⟨hmem, content, hcontent, hsum⟩ := h.files entry hentry
    have hsame : entry.1.checksum = file.checksum :=
      hprepared.named _ hmem _ hfile (by rw [Setting.dest, Setting.dest, hname])
    exact ⟨content, hname ▸ hcontent, hsum.trans hsame⟩
  · obtain ⟨content, hcontent⟩ := Option.isSome_iff_exists.mp hthere
    exact ⟨content, hcontent, hagrees file hfile content ((h.working.library _ hnew).symm.trans hcontent)⟩

theorem Copied.already_present
    (h : Copied s σ w₀ newly done w) {file : ImportFile} (hfile : file ∈ σ.files)
    (hhas : HasFile s file w.1) (status : String) :
    Copied s σ w₀ newly (done ++ [(file, status)]) w where
  working := h.working
  files entry hentry := by
    rcases List.mem_append.mp hentry with hold | hnew
    · exact h.files entry hold
    · rw [List.mem_singleton.mp hnew]
      exact ⟨hfile, hhas⟩
  names name hname := by
    obtain ⟨entry, hentry, heq⟩ := h.names name hname
    exact ⟨entry, List.mem_append_left _ hentry, heq⟩

/-- One more file is copied, under a name that was free. -/
theorem Copied.inserted
    (h : Copied s σ w₀ newly done w) {file : ImportFile} {content : List UInt8} {status : String}
    (hfile : file ∈ σ.files) (hsum : s.computeSha256 content = file.checksum)
    (hfree : w.1.library file.safeName = none) :
    Copied s σ w₀ (newly ++ [file.safeName]) (done ++ [(file, status)])
      (w.1.put .library file.safeName (some content), true) := by
  -- the files before are there, so they have other names
  have hother : ∀ entry ∈ done, entry.1.safeName ≠ file.safeName := fun entry hentry heq => by
    obtain ⟨-, _, hcontent, -⟩ := h.files entry hentry
    rw [heq, hfree] at hcontent
    cases hcontent
  have hnew : file.safeName ∉ newly := fun hmem => by
    obtain ⟨entry, hentry, heq⟩ := h.names _ hmem
    exact hother entry hentry heq
  refine ⟨h.working.copy hfree hnew, fun entry hentry => ?_, fun name hname => ?_⟩
  · rcases List.mem_append.mp hentry with hold | hlast
    · obtain ⟨hmem, c, hcontent, hc⟩ := h.files entry hold
      refine ⟨hmem, c, ?_, hc⟩
      show w.1.library.put file.safeName (some content) entry.1.safeName = _
      rw [Directory.put, if_neg (hother entry hold)]
      exact hcontent
    · rw [List.mem_singleton.mp hlast]
      refine ⟨hfile, content, ?_, hsum⟩
      show w.1.library.put file.safeName (some content) file.safeName = _
      rw [Directory.put, if_pos rfl]
  · rcases List.mem_append.mp hname with hold | hlast
    · obtain ⟨entry, hentry, heq⟩ := h.names name hold
      exact ⟨entry, List.mem_append_left _ hentry, heq⟩
    · exact ⟨(file, status), List.mem_append_right _ List.mem_cons_self, (List.mem_singleton.mp hlast).symm⟩

theorem exec_copy {src dest : String} {env : StepEnv} {w : ImportWorld} {content : List UInt8}
    (hsrc : w.files .staging src = some content) {touched : Bool}
    (hcareful : careful (.copy src .library dest) env touched = true) :
    exec 0 (.copy src .library dest) env w = (.ok (), w.put .library dest (some content)) ∨
      ∃ e, exec 0 (.copy src .library dest) env w = (.error e, w) := by
  grind [careful, exec, writeFile]

/-- All the files are copied, or the ones that were are taken back. -/
theorem copyFiles_solo (hprepared : Prepared s σ w₀) (hagrees : Agrees s w₀ σ.files)
    {files : List ImportFile}
    (hfiles : ∀ file ∈ files, file ∈ σ.files) (hw : Copied s σ w₀ newly done w) :
    Solo s σ w₀ (Ended s σ w₀ fun r w' => Copied s σ w₀ r.1 r.2 w' ∧
      r.2.map Prod.fst = done.map Prod.fst ++ files) (copyFiles s newly done files).run w := by
  induction files generalizing newly done w with
  | nil => exact ⟨hw, (List.append_nil _).symm⟩
  | cons file rest ih =>
    have hfile : file ∈ σ.files := hfiles file List.mem_cons_self
    have hnext : ∀ {newly' : List String} {w' : ImportWorld × Bool} (status : String),
        Copied s σ w₀ newly' (done ++ [(file, status)]) w' →
        Solo s σ w₀ (Ended s σ w₀ fun r w' => Copied s σ w₀ r.1 r.2 w' ∧
          r.2.map Prod.fst = done.map Prod.fst ++ (file :: rest))
          (copyFiles s newly' (done ++ [(file, status)]) rest).run w' := fun status hw' =>
      (ih (fun other hother => hfiles other (List.mem_cons_of_mem _ hother)) hw').mono
        fun r w'' hr => by grind
    obtain ⟨content, hstaged, hsum⟩ := hprepared.staged file hfile
    have hsrc : w.1.files .staging file.stagingFilename = some content := by
      rw [ImportWorld.files, hw.working.staging]
      exact hstaged
    refine sure_step (a := .exists_ .staging file.stagingFilename) hw.working.pre fun env hcareful => ?_
    rw [exec_exists hcareful, hsrc]
    refine sure_step (a := .exists_ s.finalPlace file.safeName) hw.working.pre fun env' hcareful' => ?_
    rw [exec_exists hcareful', hprepared.finalPlace]
    cases hthere : w.1.library file.safeName with
    | some existing =>
      have hthere' : (w.1.library file.safeName).isSome := by rw [hthere]; rfl
      have hhas := hw.present hprepared hfile hagrees hthere'
      rw [show w.1.files .library file.safeName = some existing from hthere]
      exact hnext _ (hw.already_present hfile hhas _)
    | none =>
      rw [show w.1.files .library file.safeName = none from hthere]
      refine sure_step (a := .exists_ .staging file.stagingFilename) hw.working.pre
        fun env'' hcareful'' => ?_
      rw [exec_exists hcareful'', hsrc]
      refine sure_step (a := .copy file.stagingFilename .library file.safeName) hw.working.pre
        fun env₃ hcareful₃ => ?_
      rcases exec_copy hsrc hcareful₃ with heq | ⟨e, heq⟩
      · rw [heq]
        exact hnext _ (hw.inserted hfile hsum hthere)
      · rw [heq]
        exact remove_and_throw hprepared hw.working.touch (by decide)

/-! ### The tracks -/

structure Scanned (s : Setting) (files : List ImportFile) (tracks : List Track) : Prop where
  sound : ∀ t ∈ tracks, ∃ file ∈ files, t.filePath = s.dest file ∧ t.contentHash = some file.checksum
  complete : ∀ file ∈ files, ∃ t ∈ tracks, t.filePath = s.dest file

/-- The scan reads the files that were copied, and changes nothing. -/
theorem scanFiles_solo (hprepared : Prepared s σ w₀) (hpre : w.2 = false → Whole s σ w₀ w.1)
    {entries : List (ImportFile × String)}
    (hentries : ∀ entry ∈ entries, entry.1 ∈ σ.files ∧ HasFile s entry.1 w.1) :
    Solo s σ w₀ (Ended s σ w₀ fun tracks w' => w' = w ∧ Scanned s (entries.map Prod.fst) tracks)
      (scanFiles s entries).run w := by
  induction entries with
  | nil => exact ⟨rfl, nofun, nofun⟩
  | cons entry rest ih =>
    obtain ⟨hfile, content, hcontent, -⟩ := hentries entry List.mem_cons_self
    have hscan : Solo s σ w₀ (Ended s σ w₀ fun track w' => w' = w ∧ ∃ t, track = some t ∧
        t.filePath = s.dest entry.1 ∧ t.contentHash = some entry.1.checksum)
        (scanSingleFile s entry.1).run w := by
      refine sure_step (a := .scan s.finalPlace entry.1.safeName) hpre fun env hcareful => ?_
      have htags : exec 0 (.scan s.finalPlace entry.1.safeName) env w.1 =
          (some (env.now, env.durationMs), w.1) := by
        have hthere : (w.1.files .library entry.1.safeName).isSome := by
          rw [show w.1.files .library entry.1.safeName = some content from hcontent]
          rfl
        rw [hprepared.finalPlace]
        exact Prod.ext (if_pos ⟨hcareful, hthere⟩) rfl
      rw [htags]
      refine ⟨rfl, {
        id := Scanner.trackIdFromLibraryPath s.newV5 s.finalDir
          (join s.finalDir (asBytes entry.1.safeName))
        filePath := s.dest entry.1
        contentHash := some entry.1.checksum
        durationMs := env.durationMs
        updatedAt := env.now }, ?_, rfl, rfl⟩
      rw [Option.filter_some, hprepared.audio _ hfile]
      rfl
    refine ended_bind hscan fun track w₁ htrack => ?_
    obtain ⟨rfl, t, rfl, hpath, hhash⟩ := htrack
    refine ended_bind (ih fun other hother => hentries other (List.mem_cons_of_mem _ hother))
      fun tracks w₂ htracks => ?_
    obtain ⟨rfl, hsound, hcomplete⟩ := htracks
    refine ⟨rfl, fun u hu => ?_, fun file hfile => ?_⟩
    · grind
    · grind

theorem findConflict_solo (hpre : w.2 = false → Whole s σ w₀ w.1) (tracks : List Track) :
    Solo s σ w₀ (Ended s σ w₀ fun _ w' => w' = w) (findConflict tracks).run w := by
  induction tracks with
  | nil => exact rfl
  | cons track rest ih =>
    cases hhash : track.contentHash with
    | none => rwa [findConflict, hhash]
    | some hash =>
      rw [findConflict, hhash]
      refine sure_step hpre fun env _ => ?_
      by_cases hfound : (((exec 0 (.findTracksByContentHash hash) env w.1).1.toOption.getD []).any
          fun t => conflicts t track) = true
      · simp only [hfound, if_true]
        rfl
      · simp only [hfound]
        exact ih

structure Filed (s : Setting) (σ : ImportSessionState) (w₀ : ImportWorld) (w : ImportWorld × Bool) :
    Prop where
  staging : w.1.staging = w₀.staging
  entry : w.1.sessions = none ∨ w.1.sessions = some σ
  row : w.1.row.isSome
  not_terminal : ¬ w.1.terminal
  stored : Stored s σ w.1
  untouched : w.2 = false → w.1.library = w₀.library ∧ w.1.tracks = w₀.tracks

theorem Filed.pre (h : Filed s σ w₀ w) (htouched : w.2 = false) : Whole s σ w₀ w.1 :=
  .inl ⟨(h.untouched htouched).1, (h.untouched htouched).2,
    not_committed_of_not_terminal h.not_terminal, fun _ => ⟨h.staging, h.entry⟩⟩

/-- The tracks are stored at once, or the files are taken back. -/
theorem storeTracks_solo (hprepared : Prepared s σ w₀)
    {tracks : List Track} (hw : Copied s σ w₀ newly done w)
    (hdone : done.map Prod.fst = σ.files) (hscanned : Scanned s σ.files tracks) :
    Solo s σ w₀ (Ended s σ w₀ fun _ w' => Filed s σ w₀ w') (storeTracks s newly tracks).run w := by
  have hfiles : ∀ file ∈ σ.files, HasFile s file w.1 := fun file hfile => by
    rw [← hdone] at hfile
    obtain ⟨entry, hentry, rfl⟩ := List.mem_map.mp hfile
    exact (hw.files entry hentry).2
  have hworking := hw.working
  cases tracks with
  | nil =>
    have hnone : ∀ file ∈ σ.files, w.1.tracks.Has (s.dest file) file.checksum := fun file hfile => by
      obtain ⟨t, ht, -⟩ := hscanned.complete file hfile
      cases ht
    refine ⟨hworking.staging, hworking.entry, hworking.row, hworking.not_terminal,
      fun file hfile => ⟨hfiles file hfile, hnone file hfile⟩, fun htouched => ?_⟩
    cases hworking.touched htouched
    exact ⟨hworking.untouched.library, hworking.untouched.tracks⟩
  | cons track rest =>
    refine sure_step (a := .upsertTracks (track :: rest)) hworking.pre fun env _ => ?_
    have hupsert : (∃ table, w.1.tracks.upsertTracks (track :: rest) = .ok table ∧
        exec 0 (.upsertTracks (track :: rest)) env w.1 = (.ok (), { w.1 with tracks := table })) ∨
        ∃ e, exec 0 (.upsertTracks (track :: rest)) env w.1 = (.error e, w.1) := by
      simp only [exec, upsert, unlessFails]
      split
      next table htable =>
        split
        · exact .inr ⟨_, rfl⟩
        · exact .inl ⟨table, htable, rfl⟩
      next e _ => exact .inr ⟨e, rfl⟩
    rcases hupsert with ⟨table, htable, heq⟩ | ⟨e, heq⟩
    · rw [heq]
      refine ⟨hworking.staging, hworking.entry, hworking.row, hworking.not_terminal,
        fun file hfile => ⟨hfiles file hfile, ?_⟩, fun h => by cases h⟩
      obtain ⟨t, ht, hpath⟩ := hscanned.complete file hfile
      have hhas : table.Has t.filePath file.checksum :=
        TrackTable.has_of_upsertTracks htable ht fun u hu hsame => by
          obtain ⟨other, hother, hdest, hhash⟩ := hscanned.sound u hu
          rw [hhash, hprepared.named other hother file hfile (hdest.symm.trans (hsame.trans hpath))]
      rwa [hpath] at hhas
    · rw [heq]
      exact remove_and_throw hprepared hworking.touch (by decide)

/-! ### The commit -/

/-- The import ends with files and tracks, or with neither. -/
theorem importFiles_solo (hprepared : Prepared s σ w₀) (hw : Working σ w₀ [] w) :
    Solo s σ w₀ (Ended s σ w₀ fun _ w' => Filed s σ w₀ w') (importFiles s σ).run w := by
  refine io_bind (commit_step hw.pre fun env _ => ?_)
  have hcommitting : Working σ w₀ [] ((exec 0 (.setImportSessionStatus .committing none) env w.1).2,
      w.2) := hw.set_status (by decide) env
  cases hstored : (exec 0 (.setImportSessionStatus .committing none) env w.1).1 with
  | error e => exact ended_error hcommitting.whole (by decide)
  | ok _ =>
    refine io_bind (commit_step (a := .createDirAll s.finalPlace) hcommitting.pre fun env' _ => ?_)
    have hcreated : (exec 0 (.createDirAll s.finalPlace) env'
        (exec 0 (.setImportSessionStatus .committing none) env w.1).2).2 =
        (exec 0 (.setImportSessionStatus .committing none) env w.1).2 := by
      rw [hprepared.finalPlace]
      exact unlessFails_keeps (P := fun w' => w' = _) rfl rfl
    cases hensured : (exec 0 (.createDirAll s.finalPlace) env'
        (exec 0 (.setImportSessionStatus .committing none) env w.1).2).1 with
    | error e =>
      refine ended_error ?_ (by decide)
      rw [hcreated]
      exact hcommitting.whole
    | ok _ =>
      rw [hcreated]
      refine ended_bind (prevalidate_solo hprepared (fun _ hfile => hfile) hcommitting)
        fun _ w₁ hw₁ => ?_
      have hstart : Copied s σ w₀ [] [] w₁ := ⟨hw₁.1, nofun, nofun⟩
      refine ended_bind (copyFiles_solo hprepared hw₁.2 (fun _ hfile => hfile) hstart)
        fun copied w₂ hw₂ => ?_
      obtain ⟨newly, done⟩ := copied
      obtain ⟨hcopied, hdone⟩ := hw₂
      refine ended_bind (scanFiles_solo hprepared hcopied.working.pre hcopied.files)
        fun tracks w₃ hw₃ => ?_
      obtain ⟨rfl, hscanned⟩ := hw₃
      rw [hdone] at hscanned
      refine ended_bind (findConflict_solo hcopied.working.pre tracks) fun conflict w₄ hw₄ => ?_
      cases hw₄
      cases conflict with
      | true =>
        refine ended_bind (removeCopied_solo hprepared hcopied.working) fun _ w₅ hw₅ => ?_
        refine sure_step hw₅.pre fun env'' _ => ?_
        exact ended_error (hw₅.set_status (by decide) env'').whole (by decide)
      | false =>
        refine ended_bind (storeTracks_solo hprepared hcopied hdone hscanned) fun _ w₅ hw₅ => ?_
        exact hw₅

/-- The session is marked when files and tracks are there. -/
theorem markCommitted_solo (hw : Filed s σ w₀ w) :
    Solo s σ w₀ (Ended s σ w₀ fun _ w' => w'.1.status = some "committed" ∧ Stored s σ w'.1)
      markCommitted.run w := by
  refine io_bind (commit_step hw.pre fun env hcareful => ?_)
  cases hfails : env.fails with
  | some e =>
    have htouched : w.2 = false := by
      grind [careful]
    have heq : exec 0 (.setImportSessionStatus .committed none) env w.1 = (.error e, w.1) := by
      simp only [exec, unlessFails, hfails]
      rfl
    rw [heq]
    exact ended_error (hw.pre htouched) (by decide)
  | none =>
    let mark : ImportSessionDb → ImportSessionDb := fun row =>
      { row with status := ImportState.committed.asStr, errorMessage := none }
    have heq : exec 0 (.setImportSessionStatus .committed none) env w.1 =
        (.ok (), w.1.setRow (unlessTerminal mark)) := by
      simp only [exec, unlessFails, hfails]
      rfl
    rw [heq]
    have hstatus : (w.1.setRow (unlessTerminal mark)).status = some "committed" :=
      status_setRow_unlessTerminal (Bool.eq_false_iff.mpr hw.not_terminal) (fun _ => rfl) hw.row
    have hstored : Stored s σ (w.1.setRow (unlessTerminal mark)) := hw.stored
    refine io_last (commit_step (fun _ => .inr ⟨hstatus, hstored⟩) fun env' _ => ?_)
    have hclosed : (exec 0 .closeImportSession env' (w.1.setRow (unlessTerminal mark))).2.status =
        some "committed" ∧
        Stored s σ (exec 0 .closeImportSession env' (w.1.setRow (unlessTerminal mark))).2 := by
      refine unlessFails_keeps (P := fun w' => w'.status = some "committed" ∧ Stored s σ w')
        ⟨hstatus, hstored⟩ ⟨?_, hstored⟩
      obtain ⟨row, hrow⟩ := Option.isSome_iff_exists.mp hw.row
      simp only [ImportWorld.status, ImportWorld.setRow, hrow, Option.map_some]
    cases hr : (exec 0 .closeImportSession env' (w.1.setRow (unlessTerminal mark))).1 with
    | error e => exact ended_error (.inr hclosed) (by decide)
    | ok _ => exact hclosed

end

end MichiServer.Import
