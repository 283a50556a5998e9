import MichiServer.Backup.Restore

/-!
# The checks of a bundle

An uploaded bundle is unpacked into its files, by their paths; where a path comes twice, the later file
stays. Each file that the manifest lists must be there with the size and the hash that it lists. What is
restored is the file `backup.json`, whether the manifest lists it or not.

What is read out of the archive is given: its entries as the reader of archives returns them, with their
errors. So are the readers of the two files of JSON, and the hash.
-/

namespace MichiServer.Backup

open MichiServer.Catalog MichiServer.Queue MichiServer.Logic MichiServer.Text

structure ManifestFileEntry where
  path : String
  role : String
  size : ℕ
  blake3 : String

structure ManifestV2 where
  version : ℕ
  exportedAt : String
  serverId : String
  configPort : ℕ
  files : List ManifestFileEntry

/-- An entry of an archive: its path, in bytes, and its content, as far as they can be read. -/
structure TarEntry where
  path : Except String (List UInt8)
  content : Except String (List UInt8)

/-- An upload: what becomes of the temporary directory, and of reading the archive. -/
structure Upload where
  isEmpty : Bool
  tempDir : Except String Unit
  entries : Except String (List (Except String TarEntry))

/-- `serde_json::from_slice` for the two files, and the hash in hexadecimal digits. -/
structure Formats where
  manifest : List UInt8 → Except String ManifestV2
  body : List UInt8 → Except String RestoreBody
  blake3 : List UInt8 → String

abbrev Files := String → Option (List UInt8)

/-! ## Unpacking -/

def fileOf (entry : Except String TarEntry) : Except ApiError (String × List UInt8) := do
  let entry ← entry.mapError fun e => v1Error 400 "CORRUPT_ENTRY" s!"Tar entry read failure: {e}"
  let path ← entry.path.mapError fun e => v1Error 400 "INVALID_PATH" s!"Invalid path in archive: {e}"
  let pathStr := fromUtf8Lossy path
  if contains pathStr ".." || startsWith pathStr "/" then
    .error (v1Error 400 "PATH_TRAVERSAL" "Archive contains illegal path traversal components")
  else
    let content ← entry.content.mapError fun e =>
      v1Error 400 "READ_FAILURE" s!"Failed to read content from {pathStr}: {e}"
    pure (pathStr, content)

/-- The entries, one after the other: a later file takes the place of an earlier one of its path. -/
def extract (files : Files) (entries : List (Except String TarEntry)) : Except ApiError Files :=
  entries.foldlM (fun files entry => do
    let file ← fileOf entry
    pure (Function.update files file.1 (some file.2))) files

def checkFile (F : Formats) (files : Files) (fileEntry : ManifestFileEntry) : Except ApiError Unit :=
  match files fileEntry.path with
  | none => .error (v1Error 400 "MISSING_BUNDLE_FILE"
      s!"File '{fileEntry.path}' declared in manifest is missing from archive")
  | some content =>
    if content.length ≠ fileEntry.size then
      .error (v1Error 400 "SIZE_MISMATCH"
        s!"File '{fileEntry.path}' size mismatch: declared {fileEntry.size}, actual {content.length}")
    else if F.blake3 content ≠ fileEntry.blake3 then
      .error (v1Error 400 "INTEGRITY_CHECKSUM_FAILED"
        (s!"BLAKE3 hash mismatch for '{fileEntry.path}': " ++
          s!"declared {fileEntry.blake3}, actual {F.blake3 content}"))
    else .ok ()

def readManifest (F : Formats) (files : Files) : Except ApiError ManifestV2 :=
  match files "manifest.json" with
  | none => .error (v1Error 400 "MISSING_MANIFEST" "Archive does not contain manifest.json")
  | some bytes =>
    (F.manifest bytes).mapError fun e =>
      v1Error 400 "INVALID_MANIFEST" s!"manifest.json schema error: {e}"

def readPayload (F : Formats) (files : Files) : Except ApiError RestoreBody :=
  match files "backup.json" with
  | none => .error (v1Error 400 "MISSING_BACKUP_JSON" "Archive does not contain logical backup.json")
  | some bytes =>
    (F.body bytes).mapError fun e =>
      v1Error 400 "INVALID_BACKUP_JSON" s!"backup.json validation failure: {e}"

def unpack (F : Formats) (upload : Upload) : Except ApiError RestoreBody :=
  if upload.isEmpty then .error (v1Error 400 "EMPTY_ARCHIVE" "Uploaded bundle is empty")
  else do
    upload.tempDir.mapError fun e => v1Error 500 "TEMP_DIR" e
    let entries ← upload.entries.mapError fun e =>
      v1Error 400 "CORRUPT_ARCHIVE" s!"Failed to read tar.gz entries: {e}"
    let files ← extract (fun _ => none) entries
    let manifest ← readManifest F files
    if manifest.version ≠ 2 then
      .error (v1Error 400 "UNSUPPORTED_VERSION"
        s!"Bundle manifest version {manifest.version} is not supported (expected 2)")
    else
      manifest.files.forM (checkFile F files)
      readPayload F files

def restoreUploadedBundle (F : Formats) (newV4 : ℕ → Uuid) (s : Server) (upload : Upload) :
    Except ApiError (ℕ × ℕ) × Server :=
  match unpack F upload with
  | .ok payload => restoreBackupBundleHandler newV4 s payload
  | .error e => (.error e, s)

/-! ## What a checked bundle is -/

/-- The archive holds a file under a path: the last of its entries with that path has that content. -/
def Holds (entries : List (Except String TarEntry)) (path : String) (content : List UInt8) : Prop :=
  ∃ before entry after, entries = before ++ entry :: after ∧ fileOf entry = .ok (path, content) ∧
    ∀ e ∈ after, ∀ other, fileOf e ≠ .ok (path, other)

def ManifestV2.listed (manifest : ManifestV2) (path : String) : List ManifestFileEntry :=
  manifest.files.filter fun f => f.path = path

/-- The file that is restored is listed once in the manifest, with its size and its hash. -/
def Checked (F : Formats) (upload : Upload) : Prop :=
  ∃ entries bytes manifest content fileEntry, upload.entries = .ok entries ∧
    Holds entries "manifest.json" bytes ∧ F.manifest bytes = .ok manifest ∧
    Holds entries "backup.json" content ∧ manifest.listed "backup.json" = [fileEntry] ∧
    fileEntry.size = content.length ∧ fileEntry.blake3 = F.blake3 content

/-- A bundle that changes the database is a checked one, and every other one is refused with nothing
changed. -/
def IntegrityChecked (F : Formats) (newV4 : ℕ → Uuid) (s : Server) (upload : Upload) : Prop :=
  ((restoreUploadedBundle F newV4 s upload).2.db ≠ s.db → Checked F upload) ∧
    (¬ Checked F upload →
      (∃ e, (restoreUploadedBundle F newV4 s upload).1 = .error e) ∧
        (restoreUploadedBundle F newV4 s upload).2 = s)

/-- A bundle that passes the checks of the upload: its entries can be read and have no illegal path, the
manifest is one of version 2, each file that it lists is there as it is listed, and the payload can be
read. -/
structure Passes (F : Formats) (upload : Upload) (entries : List (Except String TarEntry))
    (manifest : ManifestV2) (payload : RestoreBody) : Prop where
  nonempty : upload.isEmpty = false
  tempDir : upload.tempDir = .ok ()
  opened : upload.entries = .ok entries
  readable : ∀ entry ∈ entries, ∃ file, fileOf entry = .ok file
  declared : ∃ bytes, Holds entries "manifest.json" bytes ∧ F.manifest bytes = .ok manifest
  version : manifest.version = 2
  verified : ∀ f ∈ manifest.files, ∃ content, Holds entries f.path content ∧ content.length = f.size ∧
    F.blake3 content = f.blake3
  restorable : ∃ bytes, Holds entries "backup.json" bytes ∧ F.body bytes = .ok payload

/-- The manifest of a bundle that would be restored lists the file that is restored once. -/
def ListsBackupOnce (F : Formats) (newV4 : ℕ → Uuid) (s : Server) (upload : Upload) : Prop :=
  ∀ entries manifest payload, Passes F upload entries manifest payload →
    (∃ db, restoreBundleTransaction newV4 s.db payload = .ok db) →
      (manifest.listed "backup.json").length = 1

/-! ## What is unpacked -/

section Unpack

variable {F : Formats} {upload : Upload} {files files' : Files}
  {entries : List (Except String TarEntry)}

theorem exists_extract_iff : (∃ files', extract files entries = .ok files') ↔
    ∀ entry ∈ entries, ∃ file, fileOf entry = .ok file := by
  induction entries generalizing files with
  | nil => exact iff_of_true ⟨files, rfl⟩ (by simp)
  | cons entry rest ih =>
    rw [List.forall_mem_cons, extract, List.foldlM_cons]
    cases hfile : fileOf entry with
    | error e => exact iff_of_false (fun ⟨_, h⟩ => nomatch h) fun h => nomatch h.1
    | ok file =>
      have hrest := @ih (Function.update files file.1 (some file.2))
      rw [extract] at hrest
      exact hrest.trans ⟨fun h => ⟨⟨file, rfl⟩, h⟩, And.right⟩

theorem holds_cons_iff {entry : Except String TarEntry} {path : String} {content : List UInt8} :
    Holds (entry :: entries) path content ↔ Holds entries path content ∨
      fileOf entry = .ok (path, content) ∧ ∀ e ∈ entries, ∀ other, fileOf e ≠ .ok (path, other) := by
  constructor
  · rintro ⟨before, last, after, heq, hlast, hafter⟩
    cases before with
    | nil =>
      grind
    | cons first before =>
      obtain ⟨rfl, rfl⟩ := List.cons.inj heq
      exact .inl ⟨before, last, after, rfl, hlast, hafter⟩
  · rintro (⟨before, last, after, rfl, hlast, hafter⟩ | ⟨hentry, hafter⟩)
    · exact ⟨entry :: before, last, after, rfl, hlast, hafter⟩
    · exact ⟨[], entry, entries, rfl, hentry, hafter⟩

theorem extract_eq_some_iff (h : extract files entries = .ok files') {path : String}
    {content : List UInt8} : files' path = some content ↔
      Holds entries path content ∨
        files path = some content ∧ ∀ e ∈ entries, ∀ other, fileOf e ≠ .ok (path, other) := by
  induction entries generalizing files with
  | nil =>
    obtain rfl : files = files' := Except.ok.inj h
    simp [Holds]
  | cons entry rest ih =>
    rw [extract, List.foldlM_cons, bind_eq_ok_iff] at h
    obtain ⟨files₁, hstep, hrest⟩ := h
    obtain ⟨⟨name, bytes⟩, hfile, hupdate⟩ := bind_eq_ok_iff.mp hstep
    obtain rfl := Except.ok.inj hupdate
    rw [ih hrest, holds_cons_iff, List.forall_mem_cons, hfile]
    by_cases hname : path = name
    · grind
    · grind [ApiError]

theorem files_eq_some_iff (h : extract (fun _ => none) entries = .ok files) {path : String}
    {content : List UInt8} : files path = some content ↔ Holds entries path content := by
  rw [extract_eq_some_iff h]
  exact or_iff_left fun h => nomatch h.1

theorem checkFile_eq_ok_iff {f : ManifestFileEntry} : checkFile F files f = .ok () ↔
    ∃ content, files f.path = some content ∧ content.length = f.size ∧ F.blake3 content = f.blake3 := by
  grind [checkFile]

theorem forM_eq_ok_iff {α : Type} {f : α → Except ApiError Unit} {xs : List α} :
    xs.forM f = .ok () ↔ ∀ x ∈ xs, f x = .ok () := by
  induction xs with
  | nil => exact iff_of_true rfl (by simp)
  | cons x xs ih =>
    change (f x >>= fun _ => xs.forM f) = .ok () ↔ _
    grind [bind_eq_ok_iff]

theorem readManifest_eq_ok_iff {manifest : ManifestV2} : readManifest F files = .ok manifest ↔
    ∃ bytes, files "manifest.json" = some bytes ∧ F.manifest bytes = .ok manifest := by
  grind [readManifest, mapError_eq_ok_iff]

theorem readPayload_eq_ok_iff {payload : RestoreBody} : readPayload F files = .ok payload ↔
    ∃ bytes, files "backup.json" = some bytes ∧ F.body bytes = .ok payload := by
  grind [readPayload, mapError_eq_ok_iff]

/-- What unpacks is what passes every check of the archive. -/
theorem unpack_eq_ok_iff {payload : RestoreBody} : unpack F upload = .ok payload ↔
    ∃ entries manifest, Passes F upload entries manifest payload := by
  rw [unpack]
  constructor
  · intro h
    split at h
    · cases h
    · rename_i hempty
      obtain ⟨_, htemp, h⟩ := bind_eq_ok_iff.mp h
      obtain ⟨entries, hopened, h⟩ := bind_eq_ok_iff.mp h
      obtain ⟨files, hfiles, h⟩ := bind_eq_ok_iff.mp h
      obtain ⟨manifest, hmanifest, h⟩ := bind_eq_ok_iff.mp h
      split at h
      · cases h
      · rename_i hversion
        obtain ⟨⟨⟩, hchecks, hpayload⟩ := bind_eq_ok_iff.mp h
        refine ⟨entries, manifest, ?_⟩
        have hlast := @files_eq_some_iff files entries hfiles
        simp only [readManifest_eq_ok_iff, hlast] at hmanifest
        simp only [readPayload_eq_ok_iff, hlast] at hpayload
        simp only [forM_eq_ok_iff, checkFile_eq_ok_iff, hlast] at hchecks
        exact {
          nonempty := Bool.eq_false_iff.mpr hempty
          tempDir := mapError_eq_ok_iff.mp htemp
          opened := mapError_eq_ok_iff.mp hopened
          readable := exists_extract_iff.mp ⟨files, hfiles⟩
          declared := hmanifest
          version := not_not.mp hversion
          verified := hchecks
          restorable := hpayload }
  · rintro ⟨entries, manifest, h⟩
    obtain ⟨files, hfiles⟩ := exists_extract_iff.mpr h.readable
    have hlast := @files_eq_some_iff files entries hfiles
    have hmanifest : readManifest F files = .ok manifest := by
      simp only [readManifest_eq_ok_iff, hlast]
      exact h.declared
    have hchecks : manifest.files.forM (checkFile F files) = .ok () := by
      simp only [forM_eq_ok_iff, checkFile_eq_ok_iff, hlast]
      exact h.verified
    have hpayload : readPayload F files = .ok payload := by
      simp only [readPayload_eq_ok_iff, hlast]
      exact h.restorable
    rw [if_neg (by simp [h.nonempty])]
    refine bind_eq_ok_iff.mpr ⟨(), mapError_eq_ok_iff.mpr h.tempDir, ?_⟩
    refine bind_eq_ok_iff.mpr ⟨entries, mapError_eq_ok_iff.mpr h.opened, ?_⟩
    refine bind_eq_ok_iff.mpr ⟨files, hfiles, ?_⟩
    refine bind_eq_ok_iff.mpr ⟨manifest, hmanifest, ?_⟩
    rw [if_neg (not_not.mpr h.version)]
    exact bind_eq_ok_iff.mpr ⟨(), hchecks, hpayload⟩

end Unpack

/-! ## Which bundles are restored -/

section Restore

variable {F : Formats} {newV4 : ℕ → Uuid} {s : Server} {upload : Upload}

theorem holds_unique {entries : List (Except String TarEntry)} (hreadable : ∀ entry ∈ entries,
    ∃ file, fileOf entry = .ok file) {path : String} {a b : List UInt8} (ha : Holds entries path a)
    (hb : Holds entries path b) : a = b := by
  obtain ⟨files, hfiles⟩ : ∃ files, extract (fun _ => none) entries = .ok files :=
    exists_extract_iff.mpr hreadable
  rw [← files_eq_some_iff hfiles] at ha hb
  exact Option.some.inj (ha.symm.trans hb)

theorem Passes.checked_iff {entries : List (Except String TarEntry)} {manifest : ManifestV2}
    {payload : RestoreBody} (h : Passes F upload entries manifest payload) :
    Checked F upload ↔ (manifest.listed "backup.json").length = 1 := by
  constructor
  · rintro ⟨entries', bytes, manifest', content, f, hopened, hbytes, hmanifest, hcontent, hlisted, -, -⟩
    obtain rfl := Except.ok.inj (h.opened.symm.trans hopened)
    obtain ⟨bytes', hbytes', hmanifest'⟩ := h.declared
    obtain rfl := holds_unique h.readable hbytes hbytes'
    grind
  · intro hlength
    obtain ⟨f, hlisted⟩ := List.length_eq_one_iff.mp hlength
    have hmem : f ∈ manifest.listed "backup.json" := hlisted ▸ List.mem_singleton_self f
    obtain ⟨hfile, hpath⟩ := List.mem_filter.mp hmem
    obtain ⟨content, hcontent, hsize, hhash⟩ := h.verified f hfile
    obtain ⟨bytes, hbytes, hmanifest⟩ := h.declared
    rw [of_decide_eq_true hpath] at hcontent
    exact ⟨entries, bytes, manifest, content, f, h.opened, hbytes, hmanifest, hcontent, hlisted,
      hsize.symm, hhash.symm⟩

/-- An archive passes and is restored, or nothing of the tables changes. -/
theorem restoreUploadedBundle_cases (F : Formats) (newV4 : ℕ → Uuid) (s : Server) (upload : Upload) :
    (∃ entries manifest payload db, Passes F upload entries manifest payload ∧
        restoreBundleTransaction newV4 s.db payload = .ok db ∧
        ∃ counts, (restoreUploadedBundle F newV4 s upload).1 = .ok counts) ∨
      (¬ (∃ entries manifest payload db, Passes F upload entries manifest payload ∧
          restoreBundleTransaction newV4 s.db payload = .ok db) ∧
        (∃ e, (restoreUploadedBundle F newV4 s upload).1 = .error e) ∧
        (restoreUploadedBundle F newV4 s upload).2 = s) := by
  rw [restoreUploadedBundle]
  cases hunpack : unpack F upload with
  | error e =>
    refine .inr ⟨?_, ⟨e, rfl⟩, rfl⟩
    rintro ⟨entries, manifest, payload, db, hpasses, -⟩
    exact nomatch hunpack.symm.trans (unpack_eq_ok_iff.mpr ⟨entries, manifest, hpasses⟩)
  | ok payload =>
    obtain ⟨entries, manifest, hpasses⟩ := unpack_eq_ok_iff.mp hunpack
    simp only [restoreBackupBundleHandler]
    cases hdb : restoreBundleTransaction newV4 s.db payload with
    | ok db => exact .inl ⟨entries, manifest, payload, db, hpasses, hdb, _, rfl⟩
    | error e =>
      refine .inr ⟨?_, ⟨e, rfl⟩, rfl⟩
      rintro ⟨entries', manifest', payload', db, hpasses', hdb'⟩
      have hunpack' := unpack_eq_ok_iff.mpr ⟨entries', manifest', hpasses'⟩
      grind

end Restore

/-- Restoring a bundle is checked exactly where the manifest of a bundle that is restored lists the
backup once. -/
theorem integrity_checked_iff (F : Formats) (newV4 : ℕ → Uuid) (s : Server) (upload : Upload) :
    IntegrityChecked F newV4 s upload ↔ ListsBackupOnce F newV4 s upload := by
  rcases restoreUploadedBundle_cases F newV4 s upload with
    ⟨entries, manifest, payload, db, hpasses, hdb, counts, hcounts⟩ | ⟨hnone, hrefused⟩
  · constructor
    · rintro ⟨-, hother⟩ entries' manifest' payload' hpasses' -
      rw [← hpasses'.checked_iff]
      by_contra hunchecked
      obtain ⟨⟨e, herror⟩, -⟩ := hother hunchecked
      cases hcounts.symm.trans herror
    · intro h
      have hchecked := hpasses.checked_iff.mpr (h entries manifest payload hpasses ⟨db, hdb⟩)
      exact ⟨fun _ => hchecked, fun hnot => absurd hchecked hnot⟩
  · have hunchanged := congrArg Server.db hrefused.2
    refine iff_of_true ⟨fun hchanged => absurd hunchanged hchanged, fun _ => hrefused⟩ ?_
    rintro entries manifest payload hpasses ⟨db, hdb⟩
    exact absurd ⟨entries, manifest, payload, db, hpasses, hdb⟩ hnone

def bareManifest : String :=
  "\x7b\"version\":2,\"exported_at\":\"\",\"server_id\":\"\",\"config_port\":0,\"files\":[]\x7d"

def bareBackup : String :=
  "\x7b\"tracks\":[],\"playlists\":[],\"starred_tracks\":[],\"play_history\":[]\x7d"

def bareFormats : Formats where
  manifest bytes :=
    if bytes = asBytes bareManifest then .ok ⟨2, "", "", 0, []⟩ else .error "expected value"
  body bytes :=
    if bytes = asBytes bareBackup then .ok ⟨[], [], [], [], false⟩ else .error "expected value"
  blake3 _ := ""

def bareBundle : Upload where
  isEmpty := false
  tempDir := .ok ()
  entries := .ok [
    .ok ⟨.ok (asBytes "manifest.json"), .ok (asBytes bareManifest)⟩,
    .ok ⟨.ok (asBytes "backup.json"), .ok (asBytes bareBackup)⟩]

def oneTrackServer : Server where
  db := {
    tracks := [{ id := 1, filePath := "/music/a.flac", format := .flac,
                 createdAt := 0, updatedAt := 0 }]
    playlists := []
    playlistTracks := []
    playHistory := []
    references := []
    sound := by decide }
  auth := ⟨fun _ => none, fun _ => none, []⟩

/-- A bundle whose manifest lists nothing empties the library. -/
theorem unlisted_backup_restored : ¬ ∀ (F : Formats) (newV4 : ℕ → Uuid) (s : Server) (upload : Upload),
    IntegrityChecked F newV4 s upload := by
  intro h
  have hchecked : Checked bareFormats bareBundle := by
    refine (h bareFormats id oneTrackServer bareBundle).1 fun hsame => ?_
    have htracks := congrArg (·.tracks.length) hsame
    revert htracks
    decide +kernel
  obtain ⟨entries, bytes, manifest, content, f, -, -, hmanifest, -, hlisted, -⟩ := hchecked
  simp only [bareFormats] at hmanifest
  split at hmanifest
  · obtain rfl := Except.ok.inj hmanifest
    exact nomatch hlisted
  · exact nomatch hmanifest

end MichiServer.Backup
