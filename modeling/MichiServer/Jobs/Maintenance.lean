import MichiServer.Basic
import MichiServer.Text.Timestamps

/-!
# The maintenance of the database

Every hour and every day the rows that have expired are deleted. What a timestamp's column holds is the
text of RFC 3339; what it is compared with is the text of SQLite's `datetime`, so that a row is deleted
when its day is earlier than the day of the limit, and not before. One of the statements names a column
that its table does not have.

The clock reads no instant before 1970, so that no limit is before the year 0. What else the maintenance
does (checkpoint, integrity check, analysis) changes no row.
-/

namespace MichiServer.Jobs.Maintenance

open MichiServer.Text

/-- An instant of the years from 0 to 9999: nanoseconds since the first day of the year 0. -/
structure Instant where
  ns : ℕ
  four_digits : ns / oneDay < yearStart 10000

def Older (t now : Instant) (days : ℕ) : Prop := t.ns + days * oneDay < now.ns

instance (t now : Instant) (days : ℕ) : Decidable (Older t now days) :=
  inferInstanceAs (Decidable (_ < _))

def limit (now : Instant) (days : ℕ) : ℕ := now.ns - days * oneDay

/-- An instant is older than so many days, but on the very day of the limit. -/
def LastDay (t now : Instant) (days : ℕ) : Prop :=
  Older t now days ∧ t.ns / oneDay = limit now days / oneDay

instance (t now : Instant) (days : ℕ) : Decidable (LastDay t now days) :=
  inferInstanceAs (Decidable (_ ∧ _))

/-! ## Tables and statements -/

inductive Value where
  | null
  | integer (n : ℤ)
  | text (s : String)
deriving DecidableEq

/-- A table: its columns, and what a row holds in those that a statement reads. -/
structure Table (Row : Type) where
  columns : List String
  value : Row → String → Value

inductive Condition where
  /-- `column < datetime('now', '-… days')`. -/
  | before (column : String) (days : ℕ)
  | isInteger (column : String) (n : ℤ)
  | isText (column : String) (s : String)
  | and (a b : Condition)
  | or (a b : Condition)

namespace Condition

def names : Condition → List String
  | before column _ => [column]
  | isInteger column _ => [column]
  | isText column _ => [column]
  | and a b => a.names ++ b.names
  | or a b => a.names ++ b.names

/-- A row satisfies a condition: a comparison with what is no text is not true. -/
def holds (value : String → Value) (now : Instant) : Condition → Bool
  | before column days =>
    match value column with
    | .text s => s < datetime (limit now days)
    | _ => false
  | isInteger column n => value column = .integer n
  | isText column s => value column = .text s
  | and a b => a.holds value now && b.holds value now
  | or a b => a.holds value now || b.holds value now

end Condition

inductive DbError where
  | noSuchColumn (name : String)

/-- `DELETE FROM … WHERE`: the statement is refused when it names a column that is not there. -/
def delete {Row : Type} (table : Table Row) (condition : Condition) (now : Instant) (rows : List Row) :
    Except DbError (List Row) :=
  match condition.names.find? (· ∉ table.columns) with
  | some name => .error (.noSuchColumn name)
  | none => .ok (rows.filter fun row => !condition.holds (table.value row) now)

def lenient {Row : Type} (result : Except DbError (List Row)) (rows : List Row) : List Row :=
  match result with
  | .ok rest => rest
  | .error _ => rows

def flag (b : Bool) : Value := .integer (if b then 1 else 0)

def stamp (t : Instant) : Value := .text (toRfc3339 t.ns)

/-! ## The tables -/

structure Bookmark where
  id : Uuid
  finished : Bool
  updatedAt : Instant

def bookmarks : Table Bookmark where
  columns := ["id", "track_id", "user_id", "device_id", "position_ms", "duration_ms", "finished",
    "created_at", "updated_at"]
  value row
    | "finished" => flag row.finished
    | "updated_at" => stamp row.updatedAt
    | _ => .null

structure PairingSession where
  pairingId : Uuid
  expiresAt : Instant

def pairingSessions : Table PairingSession where
  columns := ["pairing_id", "code", "device_name", "device_type", "expires_at", "confirmed"]
  value row
    | "expires_at" => stamp row.expiresAt
    | _ => .null

structure QrCode where
  id : Uuid
  expiresAt : Instant
  claimed : Bool

def pairingQrCodes : Table QrCode where
  columns := ["id", "qr_code", "server_url", "expires_at", "claimed", "claimed_at", "created_at"]
  value row
    | "expires_at" => stamp row.expiresAt
    | "claimed" => flag row.claimed
    | _ => .null

structure ImportSession where
  sessionId : Uuid
  status : String
  createdAt : Instant

/-- The columns that the table was made with, and the two that were added. -/
def importSessions : Table ImportSession where
  columns := ["session_id", "device_id", "total_tracks", "total_playlists", "imported_tracks",
    "imported_playlists", "total_size_bytes", "status", "expires_at", "created_at", "status_text",
    "error_message"]
  value row
    | "status" => .text row.status
    | "created_at" => stamp row.createdAt
    | _ => .null

structure Play where
  id : Uuid
  playedAt : Instant

def playHistory : Table Play where
  columns := ["id", "track_id", "played_at", "duration_ms", "scrobbled", "user_id", "client_event_id"]
  value row
    | "played_at" => stamp row.playedAt
    | _ => .null

structure Database where
  bookmarks : List Bookmark
  pairingSessions : List PairingSession
  pairingQrCodes : List QrCode
  importSessions : List ImportSession
  playHistory : List Play

structure Times where
  bookmarks : Instant
  pairingSessions : Instant
  pairingQrCodes : Instant
  importSessions : Instant
  playHistory : Instant

/-! ## The maintenance -/

def bookmarkCondition : Condition := .and (.isInteger "finished" 1) (.before "updated_at" 30)

def pairingCondition : Condition := .before "expires_at" 0

def qrCondition : Condition := .or (.before "expires_at" 0) (.isInteger "claimed" 1)

def importCondition : Condition := .and (.before "created_at" 7) (.isText "state" "rolled_back")

def playCondition : Condition := .before "played_at" 90

def cleanupOldBookmarks (now : Instant) (rows : List Bookmark) : Except DbError (List Bookmark) :=
  delete bookmarks bookmarkCondition now rows

def runHourlyMaintenance (now : Times) (db : Database) : Except DbError Database := do
  let rest ← cleanupOldBookmarks now.bookmarks db.bookmarks
  let sessions := delete pairingSessions pairingCondition now.pairingSessions db.pairingSessions
  let codes := delete pairingQrCodes qrCondition now.pairingQrCodes db.pairingQrCodes
  let imports := delete importSessions importCondition now.importSessions db.importSessions
  pure { db with
    bookmarks := rest
    pairingSessions := lenient sessions db.pairingSessions
    pairingQrCodes := lenient codes db.pairingQrCodes
    importSessions := lenient imports db.importSessions }

def runDailyMaintenance (now : Times) (db : Database) : Except DbError Database := do
  let db ← runHourlyMaintenance now db
  let plays := delete playHistory playCondition now.playHistory db.playHistory
  pure { db with playHistory := lenient plays db.playHistory }

/-! ## What has expired -/

def Bookmark.Expired (now : Instant) (row : Bookmark) : Prop :=
  row.finished = true ∧ Older row.updatedAt now 30

def PairingSession.Expired (now : Instant) (row : PairingSession) : Prop := Older row.expiresAt now 0

def QrCode.Expired (now : Instant) (row : QrCode) : Prop :=
  row.claimed = true ∨ Older row.expiresAt now 0

def ImportSession.Expired (now : Instant) (row : ImportSession) : Prop :=
  row.status = "rolled_back" ∧ Older row.createdAt now 7

def Play.Expired (now : Instant) (row : Play) : Prop := Older row.playedAt now 90

open Classical in
noncomputable def withoutExpiredHourly (now : Times) (db : Database) : Database where
  bookmarks := db.bookmarks.filter fun row => ¬ row.Expired now.bookmarks
  pairingSessions := db.pairingSessions.filter fun row => ¬ row.Expired now.pairingSessions
  pairingQrCodes := db.pairingQrCodes.filter fun row => ¬ row.Expired now.pairingQrCodes
  importSessions := db.importSessions.filter fun row => ¬ row.Expired now.importSessions
  playHistory := db.playHistory

open Classical in
noncomputable def withoutExpiredDaily (now : Times) (db : Database) : Database :=
  { withoutExpiredHourly now db with
    playHistory := db.playHistory.filter fun row => ¬ row.Expired now.playHistory }

/-- No row has expired on the very day of its limit, and no session that was rolled back has expired. -/
structure TimelyHourly (now : Times) (db : Database) : Prop where
  bookmarks : ∀ row ∈ db.bookmarks, row.finished = true → ¬ LastDay row.updatedAt now.bookmarks 30
  pairingSessions : ∀ row ∈ db.pairingSessions, ¬ LastDay row.expiresAt now.pairingSessions 0
  pairingQrCodes : ∀ row ∈ db.pairingQrCodes,
    row.claimed = false → ¬ LastDay row.expiresAt now.pairingQrCodes 0
  importSessions : ∀ row ∈ db.importSessions, ¬ row.Expired now.importSessions

structure TimelyDaily (now : Times) (db : Database) : Prop extends TimelyHourly now db where
  playHistory : ∀ row ∈ db.playHistory, ¬ LastDay row.playedAt now.playHistory 90

/-! ## What is deleted -/

theorem LastDay.older (t now : Instant) (days : ℕ) (h : LastDay t now days) : Older t now days := h.1

/-- The comparison of texts is that of times, but for the last day. -/
theorem stamp_before_iff (value : String → Value) (now : Instant) {column : String} {t : Instant}
    (h : value column = stamp t) (days : ℕ) :
    (Condition.before column days).holds value now = true ↔
      Older t now days ∧ ¬ LastDay t now days := by
  have hlimit : limit now days / oneDay < yearStart 10000 :=
    lt_of_le_of_lt (Nat.div_le_div_right (Nat.sub_le _ _)) now.four_digits
  have htexts := toRfc3339_lt_datetime_iff t.four_digits hlimit
  simp only [Condition.holds, h, stamp, decide_eq_true_iff, htexts, LastDay, not_and]
  constructor
  · intro hlt
    have hearlier : t.ns < limit now days := by
      by_contra hge
      exact absurd (Nat.div_le_div_right (not_lt.mp hge)) (not_le.mpr hlt)
    have holder : Older t now days := by
      rw [limit] at hearlier
      rw [Older]
      omega
    exact ⟨holder, fun _ => hlt.ne⟩
  · rintro ⟨holder, hday⟩
    have hearlier : t.ns ≤ limit now days := by
      rw [Older] at holder
      rw [limit]
      omega
    exact lt_of_le_of_ne (Nat.div_le_div_right hearlier) (hday holder)

theorem flag_holds_iff (value : String → Value) (now : Instant) {column : String} {b : Bool}
    (h : value column = flag b) : (Condition.isInteger column 1).holds value now = true ↔ b = true := by
  cases b <;> simp [Condition.holds, h, flag]

open Classical in
theorem filter_eq_filter_iff {Row : Type} (p : Row → Bool) (q : Row → Prop) (rows : List Row) :
    (rows.filter fun row => !p row) = (rows.filter fun row => ¬ q row) ↔
      ∀ row ∈ rows, p row = true ↔ q row := by
  constructor
  · intro h row hrow
    have hmem := congrArg (row ∈ ·) h
    grind
  · intro h
    refine List.filter_congr fun row hrow => ?_
    grind

section Statements

variable {Row : Type} {table : Table Row} {condition : Condition}

theorem delete_of_names (h : ∀ name ∈ condition.names, name ∈ table.columns) (now : Instant)
    (rows : List Row) : delete table condition now rows =
      .ok (rows.filter fun row => !condition.holds (table.value row) now) := by
  grind [delete]

end Statements

theorem bookmark_holds_iff (now : Instant) (row : Bookmark) :
    bookmarkCondition.holds (bookmarks.value row) now = true ↔
      row.finished = true ∧ Older row.updatedAt now 30 ∧ ¬ LastDay row.updatedAt now 30 := by
  have hfinished : bookmarks.value row "finished" = flag row.finished := rfl
  have hupdated : bookmarks.value row "updated_at" = stamp row.updatedAt := rfl
  grind [bookmarkCondition, Condition.holds, flag_holds_iff, stamp_before_iff]

theorem pairing_holds_iff (now : Instant) (row : PairingSession) :
    pairingCondition.holds (pairingSessions.value row) now = true ↔
      Older row.expiresAt now 0 ∧ ¬ LastDay row.expiresAt now 0 := by
  have hexpires : pairingSessions.value row "expires_at" = stamp row.expiresAt := rfl
  rw [pairingCondition, stamp_before_iff _ now hexpires]

theorem qr_holds_iff (now : Instant) (row : QrCode) :
    qrCondition.holds (pairingQrCodes.value row) now = true ↔
      Older row.expiresAt now 0 ∧ ¬ LastDay row.expiresAt now 0 ∨ row.claimed = true := by
  have hclaimed : pairingQrCodes.value row "claimed" = flag row.claimed := rfl
  have hexpires : pairingQrCodes.value row "expires_at" = stamp row.expiresAt := rfl
  grind [qrCondition, Condition.holds, flag_holds_iff, stamp_before_iff]

theorem play_holds_iff (now : Instant) (row : Play) :
    playCondition.holds (playHistory.value row) now = true ↔
      Older row.playedAt now 90 ∧ ¬ LastDay row.playedAt now 90 := by
  have hplayed : playHistory.value row "played_at" = stamp row.playedAt := rfl
  rw [playCondition, stamp_before_iff _ now hplayed]

theorem delete_importSessions (now : Instant) (rows : List ImportSession) :
    delete importSessions importCondition now rows = .error (.noSuchColumn "state") := by
  have hfind : importCondition.names.find? (· ∉ importSessions.columns) = some "state" := by decide
  rw [delete, hfind]

theorem runHourlyMaintenance_eq (now : Times) (db : Database) : runHourlyMaintenance now db = .ok { db with
    bookmarks := db.bookmarks.filter fun row =>
      !bookmarkCondition.holds (bookmarks.value row) now.bookmarks
    pairingSessions := db.pairingSessions.filter fun row =>
      !pairingCondition.holds (pairingSessions.value row) now.pairingSessions
    pairingQrCodes := db.pairingQrCodes.filter fun row =>
      !qrCondition.holds (pairingQrCodes.value row) now.pairingQrCodes } := by
  rw [runHourlyMaintenance, cleanupOldBookmarks, delete_of_names (by decide), delete_of_names (by decide),
    delete_of_names (by decide), delete_importSessions]
  rfl

theorem runDailyMaintenance_eq (now : Times) (db : Database) : runDailyMaintenance now db = .ok { db with
    bookmarks := db.bookmarks.filter fun row =>
      !bookmarkCondition.holds (bookmarks.value row) now.bookmarks
    pairingSessions := db.pairingSessions.filter fun row =>
      !pairingCondition.holds (pairingSessions.value row) now.pairingSessions
    pairingQrCodes := db.pairingQrCodes.filter fun row =>
      !qrCondition.holds (pairingQrCodes.value row) now.pairingQrCodes
    playHistory := db.playHistory.filter fun row =>
      !playCondition.holds (playHistory.value row) now.playHistory } := by
  have hplays : delete playHistory playCondition now.playHistory db.playHistory = .ok _ :=
    delete_of_names (by decide) _ _
  rw [runDailyMaintenance, runHourlyMaintenance_eq]
  change Except.ok _ = Except.ok _
  rw [hplays]
  rfl

section Tables

variable (now : Instant)

open Classical

theorem bookmarks_iff (rows : List Bookmark) :
    (rows.filter fun row => !bookmarkCondition.holds (bookmarks.value row) now) =
        (rows.filter fun row => ¬ row.Expired now) ↔
      ∀ row ∈ rows, row.finished = true → ¬ LastDay row.updatedAt now 30 := by
  rw [filter_eq_filter_iff]
  refine forall₂_congr fun row _ => ?_
  rw [bookmark_holds_iff, Bookmark.Expired]
  simp [Older, LastDay]

theorem pairingSessions_iff (rows : List PairingSession) :
    (rows.filter fun row => !pairingCondition.holds (pairingSessions.value row) now) =
        (rows.filter fun row => ¬ row.Expired now) ↔
      ∀ row ∈ rows, ¬ LastDay row.expiresAt now 0 := by
  rw [filter_eq_filter_iff]
  refine forall₂_congr fun row _ => ?_
  rw [pairing_holds_iff, PairingSession.Expired]
  simp [Older, LastDay]

theorem pairingQrCodes_iff (rows : List QrCode) :
    (rows.filter fun row => !qrCondition.holds (pairingQrCodes.value row) now) =
        (rows.filter fun row => ¬ row.Expired now) ↔
      ∀ row ∈ rows, row.claimed = false → ¬ LastDay row.expiresAt now 0 := by
  rw [filter_eq_filter_iff]
  refine forall₂_congr fun row _ => ?_
  rw [qr_holds_iff, QrCode.Expired, ← Bool.not_eq_true]
  grind [LastDay.older, Older, LastDay]

theorem importSessions_iff (rows : List ImportSession) :
    rows = (rows.filter fun row => ¬ row.Expired now) ↔ ∀ row ∈ rows, ¬ row.Expired now := by
  rw [eq_comm, List.filter_eq_self]
  simp only [decide_eq_true_iff]

theorem playHistory_iff (rows : List Play) :
    (rows.filter fun row => !playCondition.holds (playHistory.value row) now) =
        (rows.filter fun row => ¬ row.Expired now) ↔
      ∀ row ∈ rows, ¬ LastDay row.playedAt now 90 := by
  rw [filter_eq_filter_iff]
  refine forall₂_congr fun row _ => ?_
  rw [play_holds_iff, Play.Expired]
  simp [Older, LastDay]

end Tables

theorem run_hourly_iff (now : Times) (db : Database) :
    runHourlyMaintenance now db = .ok (withoutExpiredHourly now db) ↔ TimelyHourly now db := by
  rw [runHourlyMaintenance_eq, Except.ok.injEq, withoutExpiredHourly, Database.mk.injEq, bookmarks_iff,
    pairingSessions_iff, pairingQrCodes_iff, importSessions_iff]
  constructor
  · rintro ⟨hbookmarks, hsessions, hcodes, himports, -⟩
    exact ⟨hbookmarks, hsessions, hcodes, himports⟩
  · rintro ⟨hbookmarks, hsessions, hcodes, himports⟩
    exact ⟨hbookmarks, hsessions, hcodes, himports, rfl⟩

theorem run_daily_iff (now : Times) (db : Database) :
    runDailyMaintenance now db = .ok (withoutExpiredDaily now db) ↔ TimelyDaily now db := by
  rw [runDailyMaintenance_eq, Except.ok.injEq, withoutExpiredDaily, withoutExpiredHourly,
    Database.mk.injEq, bookmarks_iff, pairingSessions_iff, pairingQrCodes_iff, importSessions_iff,
    playHistory_iff]
  constructor
  · rintro ⟨hbookmarks, hsessions, hcodes, himports, hplays⟩
    exact ⟨⟨hbookmarks, hsessions, hcodes, himports⟩, hplays⟩
  · rintro ⟨⟨hbookmarks, hsessions, hcodes, himports⟩, hplays⟩
    exact ⟨hbookmarks, hsessions, hcodes, himports, hplays⟩

/-- The maintenance deletes exactly what has expired where no row has expired on the very day of its limit
and no session that was rolled back has expired, and nowhere else. -/
theorem maintenance_deletes_expired_iff (now : Times) (db : Database) :
    (runHourlyMaintenance now db = .ok (withoutExpiredHourly now db) ↔ TimelyHourly now db) ∧
      (runDailyMaintenance now db = .ok (withoutExpiredDaily now db) ↔ TimelyDaily now db) :=
  ⟨run_hourly_iff now db, run_daily_iff now db⟩

def midnight : Instant := ⟨739000 * oneDay, by decide⟩

def afterMidnight : Instant := ⟨739000 * oneDay + 1, by decide⟩

/-- A pairing session that expired at midnight is still there after midnight. -/
theorem expired_today_is_kept : ¬ ∀ (now : Times) (db : Database),
    runHourlyMaintenance now db = .ok (withoutExpiredHourly now db) := by
  intro h
  have heq := h ⟨afterMidnight, afterMidnight, afterMidnight, afterMidnight, afterMidnight⟩
    ⟨[], [⟨1, midnight⟩], [], [], []⟩
  have htimely := (run_hourly_iff _ _).mp heq
  exact htimely.pairingSessions ⟨1, midnight⟩ List.mem_cons_self (by decide)

end MichiServer.Jobs.Maintenance
