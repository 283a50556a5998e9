import MichiServer.Basic
import MichiServer.Logic.Trace
import Mathlib.Data.List.Perm.Basic

/-!
# Bookmarks

A bookmark is where a user stopped in a track. It is written by an upsert whose conflict target is the
pair of track and user, and a statement with such a target can be prepared only where the schema has a
primary key or a unique index on just these columns. The migration makes an index on them that is not
unique, so no bookmark is ever stored.

Left out is the record of the change that an upsert and a delete leave for synchronisation.
-/

namespace MichiServer.Catalog

open MichiServer.Logic

inductive BookmarkColumn where
  | id | trackId | userId | deviceId | positionMs | durationMs | finished | createdAt | updatedAt
deriving DecidableEq

structure BookmarkRow where
  id : Uuid
  trackId : Uuid
  userId : String
  deviceId : Option String
  positionMs : ℤ
  durationMs : ℤ
  finished : Bool
  createdAt : DateTime
  updatedAt : DateTime

structure Bookmark where
  id : Uuid
  trackId : Uuid
  userId : String
  deviceId : Option String
  positionMs : ℤ
  durationMs : ℤ
  finished : Bool

structure Index where
  columns : List BookmarkColumn
  unique : Bool

/-- The schema of the table, as far as it says which rows may stand together. -/
structure BookmarkSchema where
  primaryKey : List BookmarkColumn
  indexes : List Index

/-- `migration_027`: `CREATE INDEX`, not `CREATE UNIQUE INDEX`. No later migration alters the table. -/
def migration027 : BookmarkSchema where
  primaryKey := [.id]
  indexes := [⟨[.trackId, .userId], false⟩]

namespace BookmarkSchema

variable (schema : BookmarkSchema)

def constraints : List (List BookmarkColumn) :=
  schema.primaryKey :: (schema.indexes.filter Index.unique).map Index.columns

/-- An `ON CONFLICT` clause has to name the columns of a constraint, in any order. -/
def arbiter (target : List BookmarkColumn) : Bool := schema.constraints.any target.isPerm

end BookmarkSchema

namespace BookmarkRow

def same (a b : BookmarkRow) : BookmarkColumn → Bool
  | .id => a.id = b.id
  | .trackId => a.trackId = b.trackId
  | .userId => a.userId = b.userId
  | .deviceId => a.deviceId = b.deviceId
  | .positionMs => a.positionMs = b.positionMs
  | .durationMs => a.durationMs = b.durationMs
  | .finished => a.finished = b.finished
  | .createdAt => a.createdAt = b.createdAt
  | .updatedAt => a.updatedAt = b.updatedAt

def conflicts (columns : List BookmarkColumn) (a b : BookmarkRow) : Bool := columns.all (a.same b)

def updated (excluded old : BookmarkRow) : BookmarkRow :=
  { old with
    positionMs := excluded.positionMs
    deviceId := excluded.deviceId
    durationMs := excluded.durationMs
    finished := excluded.finished
    updatedAt := excluded.updatedAt }

def bookmark (row : BookmarkRow) : Bookmark where
  id := row.id
  trackId := row.trackId
  userId := row.userId
  deviceId := row.deviceId
  positionMs := row.positionMs
  durationMs := row.durationMs
  finished := row.finished

def isOf (trackId : Uuid) (userId : String) (row : BookmarkRow) : Bool :=
  row.trackId = trackId && row.userId = userId

end BookmarkRow

structure Bookmarks where
  tracks : Uuid → Bool
  rows : List BookmarkRow

inductive SqlError where
  | noSuchConstraint
  | uniqueConstraint
  | foreignKeyConstraint

def upsertTarget : List BookmarkColumn := [.trackId, .userId]

namespace Bookmarks

variable (schema : BookmarkSchema) (db : Bookmarks)

def upsert (excluded : BookmarkRow) : Except SqlError Bookmarks :=
  if schema.arbiter upsertTarget then
    if db.rows.any (excluded.conflicts upsertTarget) then
      .ok { db with
        rows := db.rows.map fun row =>
          if excluded.conflicts upsertTarget row then excluded.updated row else row }
    else if schema.constraints.any fun columns => db.rows.any (excluded.conflicts columns) then
      .error .uniqueConstraint
    else if db.tracks excluded.trackId then .ok { db with rows := db.rows ++ [excluded] }
    else .error .foreignKeyConstraint
  else .error .noSuchConstraint

def upsertBookmark (newV4 : Uuid) (now : DateTime) (trackId : Uuid) (userId : String)
    (deviceId : Option String) (positionMs durationMs : ℤ) (finished : Bool) :
    Except SqlError Unit × Bookmarks :=
  match db.upsert schema ⟨newV4, trackId, userId, deviceId, positionMs, durationMs, finished,
    now, now⟩ with
  | .ok db' => (.ok (), db')
  | .error e => (.error e, db)

def getBookmark (trackId : Uuid) (userId : String) : Option Bookmark :=
  (db.rows.find? (BookmarkRow.isOf trackId userId)).map BookmarkRow.bookmark

def deleteBookmark (trackId : Uuid) (userId : String) : Bool × Bookmarks :=
  (db.rows.any (BookmarkRow.isOf trackId userId),
    { db with rows := db.rows.filter fun row => !row.isOf trackId userId })

end Bookmarks

/-! ## Runs -/

inductive BookmarkCall where
  | upsert (newV4 : Uuid) (now : DateTime) (trackId : Uuid) (userId : String)
      (deviceId : Option String) (positionMs durationMs : ℤ) (finished : Bool)
  | delete (trackId : Uuid) (userId : String)

structure BookmarkValues where
  deviceId : Option String
  positionMs : ℤ
  durationMs : ℤ
  finished : Bool

def Bookmark.values (b : Bookmark) : BookmarkValues :=
  ⟨b.deviceId, b.positionMs, b.durationMs, b.finished⟩

namespace BookmarkCall

def step (schema : BookmarkSchema) (db : Bookmarks) : BookmarkCall → Bookmarks
  | upsert newV4 now trackId userId deviceId positionMs durationMs finished =>
    (db.upsertBookmark schema newV4 now trackId userId deviceId positionMs durationMs finished).2
  | delete trackId userId => (db.deleteBookmark trackId userId).2

def succeeds (schema : BookmarkSchema) (db : Bookmarks) : BookmarkCall → Bool
  | upsert newV4 now trackId userId deviceId positionMs durationMs finished =>
    (db.upsertBookmark schema newV4 now trackId userId deviceId positionMs durationMs
      finished).1.isOk
  | delete _ _ => true

def pair : BookmarkCall → Uuid × String
  | upsert _ _ trackId userId _ _ _ _ => (trackId, userId)
  | delete trackId userId => (trackId, userId)

def Stores (tracks : Uuid → Bool) : BookmarkCall → Prop
  | upsert _ _ trackId _ _ _ _ _ => tracks trackId
  | delete _ _ => False

def assign (tracks : Uuid → Bool) (trackId : Uuid) (userId : String)
    (stored : Option BookmarkValues) : BookmarkCall → Option BookmarkValues
  | upsert _ _ track user deviceId positionMs durationMs finished =>
    if track = trackId ∧ user = userId ∧ tracks track then
      some ⟨deviceId, positionMs, durationMs, finished⟩
    else stored
  | delete track user => if track = trackId ∧ user = userId then none else stored

end BookmarkCall

def latest (tracks : Uuid → Bool) (trackId : Uuid) (userId : String) (calls : List BookmarkCall) :
    Option BookmarkValues :=
  calls.foldl (BookmarkCall.assign tracks trackId userId) none

def noBookmarks (tracks : Uuid → Bool) : Bookmarks := ⟨tracks, []⟩

def bookmarksAfter (schema : BookmarkSchema) (tracks : Uuid → Bool) (calls : List BookmarkCall) :
    Bookmarks :=
  Trace.run (BookmarkCall.step schema) (noBookmarks tracks) calls

structure MapLike (schema : BookmarkSchema) (tracks : Uuid → Bool) (calls : List BookmarkCall) :
    Prop where
  stores : ∀ before call, before ++ [call] <+: calls → call.Stores tracks →
    call.succeeds schema (bookmarksAfter schema tracks before)
  gets : ∀ before, before <+: calls → ∀ trackId userId,
    ((bookmarksAfter schema tracks before).getBookmark trackId userId).map Bookmark.values =
      latest tracks trackId userId before
  one : ∀ before, before <+: calls → ∀ trackId userId,
    ((bookmarksAfter schema tracks before).rows.filter
      (BookmarkRow.isOf trackId userId)).length ≤ 1
  others : ∀ before call, before ++ [call] <+: calls → ∀ trackId userId,
    call.pair ≠ (trackId, userId) →
      (bookmarksAfter schema tracks (before ++ [call])).rows.filter
          (BookmarkRow.isOf trackId userId) =
        (bookmarksAfter schema tracks before).rows.filter (BookmarkRow.isOf trackId userId)

/-! ## Without a constraint on the pair -/

section Migrated

variable {schema : BookmarkSchema} {tracks : Uuid → Bool} {calls : List BookmarkCall}

theorem upsert_refused (h : schema.arbiter upsertTarget = false) (db : Bookmarks)
    (excluded : BookmarkRow) : db.upsert schema excluded = .error .noSuchConstraint := by
  rw [Bookmarks.upsert, h]
  rfl

theorem rowsAfter_eq_nil (h : schema.arbiter upsertTarget = false) :
    (bookmarksAfter schema tracks calls).rows = [] := by
  have hstep : ∀ db (call : BookmarkCall), db.rows = [] → (call.step schema db).rows = [] := by
    intro db call hdb
    cases call with
    | upsert =>
      rw [BookmarkCall.step, Bookmarks.upsertBookmark, upsert_refused h]
      exact hdb
    | delete trackId userId =>
      simp [BookmarkCall.step, Bookmarks.deleteBookmark, hdb]
  exact Trace.run_kept (I := fun db : Bookmarks => db.rows = []) hstep rfl calls

theorem latest_eq_none (h : ∀ call ∈ calls, ¬ call.Stores tracks) (trackId : Uuid)
    (userId : String) : latest tracks trackId userId calls = none := by
  induction calls with
  | nil => rfl
  | cons call rest ih =>
    have hcall : call.assign tracks trackId userId none = none := by
      have hstores := h call List.mem_cons_self
      cases call with
      | upsert => exact if_neg fun hpair => hstores hpair.2.2
      | delete => exact ite_self none
    grind [latest]

/-- The bookmarks of the migrated database behave as a map exactly in the runs that store none. -/
theorem map_like_iff (tracks : Uuid → Bool) (calls : List BookmarkCall) :
    MapLike migration027 tracks calls ↔ ∀ call ∈ calls, ¬ call.Stores tracks := by
  have hschema : migration027.arbiter upsertTarget = false := by decide
  constructor
  · intro h call hcall hstores
    obtain ⟨before, after, rfl⟩ := List.append_of_mem hcall
    have hpre : before ++ [call] <+: before ++ call :: after := ⟨after, by simp⟩
    have hsucceeds := h.stores before call hpre hstores
    cases call with
    | upsert =>
      rw [BookmarkCall.succeeds, Bookmarks.upsertBookmark, upsert_refused hschema] at hsucceeds
      exact nomatch hsucceeds
    | delete => exact hstores
  · intro h
    constructor
    case stores =>
      intro before call hpre hstores
      exact absurd hstores (h call (hpre.mem (by simp)))
    case gets =>
      intro before hpre trackId userId
      rw [Bookmarks.getBookmark, rowsAfter_eq_nil hschema,
        latest_eq_none fun call hcall => h call (hpre.mem hcall)]
      rfl
    case one =>
      intro before _ trackId userId
      simp [rowsAfter_eq_nil hschema]
    case others =>
      intro before call _ trackId userId _
      rw [rowsAfter_eq_nil hschema, rowsAfter_eq_nil hschema]

def oneBookmark : List BookmarkCall := [.upsert 1 0 7 "default" none 30000 240000 false]

/-- The first bookmark is not stored: no unique index matches the conflict target. -/
theorem one_bookmark_fails : ¬ ∀ tracks calls, MapLike migration027 tracks calls := by
  intro h
  have hstores := (h (fun _ => true) oneBookmark).stores [] _ List.prefix_rfl rfl
  revert hstores
  decide

end Migrated

end MichiServer.Catalog
