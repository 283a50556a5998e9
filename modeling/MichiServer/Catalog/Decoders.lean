import Mathlib
import MichiServer.Catalog.Tracks

/-!
# Decoding rows

A query names the columns of its result, and a decoder reads a row of the result by such names: a
column that is not there is a panic, unless it is read by `try_get`. Three decoders read the rows of
all the lists of tracks, playlists and plays, each fed by column lists that are written by hand.

Which rows a query selects plays no part: whichever they are, they are decoded one by one. A row is
what the program stores: texts in the text columns, integers of 64 bits in those of integers, and the
texts of UUIDs and times, which are read back as they were written.
-/

namespace MichiServer.Catalog

open MichiServer.Files

inductive Column where
  | id | title | artist | album | albumArtist | durationMs | filePath | format | sampleRate
  | bitDepth | channels | artworkId | genre | year | trackNumber | discNumber | contentHash
  | fileSize | fileMtimeNs | starred | rating | starredAt | replaygainTrackGain
  | replaygainTrackPeak | createdAt | updatedAt
  | trackId | playedAt | scrobbled | tId | tDurationMs
  | name | description | trackCount | shareCode | isPublic
deriving DecidableEq

inductive Value where
  | null
  | integer (n : ℤ)
  | real (x : F64)
  | text (s : String)
  | uuid (id : Uuid)
  | time (t : DateTime)
deriving DecidableEq

inductive Panic where
  | columnNotFound (column : Column)
  | columnDecode (column : Column)

abbrev ResultRow := Column → Option Value

namespace Value

def of {α : Type} (f : α → Value) : Option α → Value
  | some a => f a
  | none => null

def readInteger : Value → Option ℤ
  | integer n => some n
  | _ => none

def readReal : Value → Option F64
  | real x => some x
  | _ => none

def readText : Value → Option String
  | text s => some s
  | _ => none

def readUuid : Value → Option Uuid
  | uuid id => some id
  | _ => none

def readTime : Value → Option DateTime
  | time t => some t
  | _ => none

@[simp] theorem readInteger_integer (n : ℤ) : readInteger (integer n) = some n := rfl

@[simp] theorem readText_text (s : String) : readText (text s) = some s := rfl

@[simp] theorem readUuid_uuid (id : Uuid) : readUuid (uuid id) = some id := rfl

@[simp] theorem readTime_time (t : DateTime) : readTime (time t) = some t := rfl

def nullable {α : Type} (read : Value → Option α) : Value → Option (Option α)
  | null => some none
  | value => (read value).map some

@[simp] theorem nullable_integer (o : Option ℤ) : nullable readInteger (of integer o) = some o := by
  cases o <;> rfl

@[simp] theorem nullable_real (o : Option F64) : nullable readReal (of real o) = some o := by
  cases o <;> rfl

@[simp] theorem nullable_text (o : Option String) : nullable readText (of text o) = some o := by
  cases o <;> rfl

@[simp] theorem nullable_uuid (o : Option Uuid) : nullable readUuid (of uuid o) = some o := by
  cases o <;> rfl

end Value

open Value

def get {α : Type} (row : ResultRow) (read : Value → Option α) (column : Column) : Except Panic α :=
  match row column with
  | none => .error (.columnNotFound column)
  | some value =>
    match read value with
    | some a => .ok a
    | none => .error (.columnDecode column)

def tryGet {α : Type} (row : ResultRow) (read : Value → Option α) (column : Column) : Option α :=
  ((row column).bind (nullable read)).join

def asUnsigned (bits : ℕ) (v : ℤ) : ℕ := (v % 2 ^ bits).toNat

def asI32 (v : ℤ) : ℤ := Int.bmod v (2 ^ 32)

def parseFormat (s : String) : AudioFormat :=
  match toLowercase s with
  | "mp3" => .mp3
  | "flac" => .flac
  | "ogg" => .ogg
  | "opus" => .opus
  | "aac" => .aac
  | "m4a" => .m4a
  | "wav" => .wav
  | _ => .unknown

/-! ## What is stored -/

structure TrackRow where
  id : Uuid
  title : Option String
  artist : Option String
  album : Option String
  albumArtist : Option String
  durationMs : Option ℤ
  filePath : String
  format : String
  sampleRate : Option ℤ
  bitDepth : Option ℤ
  channels : Option ℤ
  artworkId : Option Uuid
  genre : Option String
  year : Option ℤ
  trackNumber : Option ℤ
  discNumber : Option ℤ
  contentHash : Option String
  fileSize : Option ℤ
  fileMtimeNs : Option ℤ
  starred : ℤ
  rating : ℤ
  starredAt : Option String
  replaygainTrackGain : Option F64
  replaygainTrackPeak : Option F64
  createdAt : DateTime
  updatedAt : DateTime

namespace TrackRow

def value (row : TrackRow) : ResultRow
  | .id => some (.uuid row.id)
  | .title => some (of .text row.title)
  | .artist => some (of .text row.artist)
  | .album => some (of .text row.album)
  | .albumArtist => some (of .text row.albumArtist)
  | .durationMs => some (of .integer row.durationMs)
  | .filePath => some (.text row.filePath)
  | .format => some (.text row.format)
  | .sampleRate => some (of .integer row.sampleRate)
  | .bitDepth => some (of .integer row.bitDepth)
  | .channels => some (of .integer row.channels)
  | .artworkId => some (of .uuid row.artworkId)
  | .genre => some (of .text row.genre)
  | .year => some (of .integer row.year)
  | .trackNumber => some (of .integer row.trackNumber)
  | .discNumber => some (of .integer row.discNumber)
  | .contentHash => some (of .text row.contentHash)
  | .fileSize => some (of .integer row.fileSize)
  | .fileMtimeNs => some (of .integer row.fileMtimeNs)
  | .starred => some (.integer row.starred)
  | .rating => some (.integer row.rating)
  | .starredAt => some (of .text row.starredAt)
  | .replaygainTrackGain => some (of .real row.replaygainTrackGain)
  | .replaygainTrackPeak => some (of .real row.replaygainTrackPeak)
  | .createdAt => some (.time row.createdAt)
  | .updatedAt => some (.time row.updatedAt)
  | _ => none

def track (row : TrackRow) : Track where
  id := row.id
  title := row.title
  artist := row.artist
  album := row.album
  albumArtist := row.albumArtist
  durationMs := row.durationMs.map (asUnsigned 64)
  filePath := row.filePath
  format := parseFormat row.format
  sampleRate := row.sampleRate.map (asUnsigned 32)
  bitDepth := row.bitDepth.map (asUnsigned 8)
  channels := row.channels.map (asUnsigned 8)
  artworkId := row.artworkId
  genre := row.genre
  year := row.year.map asI32
  trackNumber := row.trackNumber.map (asUnsigned 32)
  discNumber := row.discNumber.map (asUnsigned 32)
  contentHash := row.contentHash
  fileSize := row.fileSize.map (asUnsigned 64)
  fileMtimeNs := row.fileMtimeNs
  starred := row.starred ≠ 0
  rating := asUnsigned 8 row.rating
  starredAt := row.starredAt
  replaygainTrackGain := row.replaygainTrackGain
  replaygainTrackPeak := row.replaygainTrackPeak
  createdAt := row.createdAt
  updatedAt := row.updatedAt

end TrackRow

structure PlaylistRow where
  id : Uuid
  name : String
  description : Option String
  trackCount : ℤ
  shareCode : Option String
  isPublic : ℤ
  createdAt : DateTime
  updatedAt : DateTime

structure PlaylistRecord where
  id : Uuid
  name : String
  description : Option String
  trackCount : ℤ
  shareCode : Option String
  isPublic : Bool
  createdAt : DateTime
  updatedAt : DateTime

namespace PlaylistRow

def value (row : PlaylistRow) : ResultRow
  | .id => some (.uuid row.id)
  | .name => some (.text row.name)
  | .description => some (of .text row.description)
  | .trackCount => some (.integer row.trackCount)
  | .shareCode => some (of .text row.shareCode)
  | .isPublic => some (.integer row.isPublic)
  | .createdAt => some (.time row.createdAt)
  | .updatedAt => some (.time row.updatedAt)
  | _ => none

def playlist (row : PlaylistRow) : PlaylistRecord where
  id := row.id
  name := row.name
  description := row.description
  trackCount := row.trackCount
  shareCode := row.shareCode
  isPublic := row.isPublic ≠ 0
  createdAt := row.createdAt
  updatedAt := row.updatedAt

end PlaylistRow

structure PlayRow where
  id : Uuid
  playedAt : DateTime
  durationMs : Option ℤ
  scrobbled : ℤ
  track : TrackRow

structure PlayRecord where
  id : Uuid
  trackId : Uuid
  playedAt : DateTime
  durationMs : Option ℕ
  scrobbled : Bool

namespace PlayRow

def value (row : PlayRow) : ResultRow
  | .id => some (.uuid row.id)
  | .trackId => some (.uuid row.track.id)
  | .playedAt => some (.time row.playedAt)
  | .durationMs => some (of .integer row.durationMs)
  | .scrobbled => some (.integer row.scrobbled)
  | _ => none

def play (row : PlayRow) : PlayRecord where
  id := row.id
  trackId := row.track.id
  playedAt := row.playedAt
  durationMs := row.durationMs.map (asUnsigned 64)
  scrobbled := row.scrobbled ≠ 0

end PlayRow

/-! ## The decoders -/

def rowToTrack (row : ResultRow) : Except Panic Track := do
  let id ← get row readUuid .id
  let format ← get row readText .format
  let artworkId ← get row (nullable readUuid) .artworkId
  let createdAt ← get row readTime .createdAt
  let updatedAt ← get row readTime .updatedAt
  let title ← get row (nullable readText) .title
  let artist ← get row (nullable readText) .artist
  let album ← get row (nullable readText) .album
  let albumArtist ← get row (nullable readText) .albumArtist
  let durationMs ← get row (nullable readInteger) .durationMs
  let filePath ← get row readText .filePath
  let sampleRate ← get row (nullable readInteger) .sampleRate
  let bitDepth ← get row (nullable readInteger) .bitDepth
  let channels ← get row (nullable readInteger) .channels
  let genre ← get row (nullable readText) .genre
  let year ← get row (nullable readInteger) .year
  let trackNumber ← get row (nullable readInteger) .trackNumber
  let discNumber ← get row (nullable readInteger) .discNumber
  let contentHash ← get row (nullable readText) .contentHash
  let fileSize := tryGet row readInteger .fileSize
  let fileMtimeNs := tryGet row readInteger .fileMtimeNs
  let starred ← get row readInteger .starred
  let rating ← get row readInteger .rating
  let starredAt ← get row (nullable readText) .starredAt
  let replaygainTrackGain ← get row (nullable readReal) .replaygainTrackGain
  let replaygainTrackPeak ← get row (nullable readReal) .replaygainTrackPeak
  pure {
    id := id
    title := title
    artist := artist
    album := album
    albumArtist := albumArtist
    durationMs := durationMs.map (asUnsigned 64)
    filePath := filePath
    format := parseFormat format
    sampleRate := sampleRate.map (asUnsigned 32)
    bitDepth := bitDepth.map (asUnsigned 8)
    channels := channels.map (asUnsigned 8)
    artworkId := artworkId
    genre := genre
    year := year.map asI32
    trackNumber := trackNumber.map (asUnsigned 32)
    discNumber := discNumber.map (asUnsigned 32)
    contentHash := contentHash
    fileSize := fileSize.map (asUnsigned 64)
    fileMtimeNs := fileMtimeNs
    starred := starred ≠ 0
    rating := asUnsigned 8 rating
    starredAt := starredAt
    replaygainTrackGain := replaygainTrackGain
    replaygainTrackPeak := replaygainTrackPeak
    createdAt := createdAt
    updatedAt := updatedAt }

def rowToPlaylist (row : ResultRow) : Except Panic PlaylistRecord := do
  let id ← get row readUuid .id
  let name ← get row readText .name
  let description ← get row (nullable readText) .description
  let trackCount ← get row readInteger .trackCount
  let shareCode ← get row (nullable readText) .shareCode
  let isPublic ← get row readInteger .isPublic
  let createdAt ← get row readTime .createdAt
  let updatedAt ← get row readTime .updatedAt
  pure {
    id := id
    name := name
    description := description
    trackCount := trackCount
    shareCode := shareCode
    isPublic := isPublic ≠ 0
    createdAt := createdAt
    updatedAt := updatedAt }

/-- `row_to_play_history_with_track`: what it does not read of a track is as for a track without. -/
def rowToPlayHistoryWithTrack (row : ResultRow) : Except Panic (PlayRecord × Track) := do
  let id ← get row readUuid .id
  let trackId ← get row readUuid .trackId
  let playedAt ← get row readTime .playedAt
  let durationMs ← get row (nullable readInteger) .durationMs
  let scrobbled ← get row readInteger .scrobbled
  let title ← get row (nullable readText) .title
  let artist ← get row (nullable readText) .artist
  let album ← get row (nullable readText) .album
  let albumArtist ← get row (nullable readText) .albumArtist
  let tDurationMs ← get row (nullable readInteger) .tDurationMs
  let filePath ← get row readText .filePath
  let format ← get row readText .format
  let sampleRate ← get row (nullable readInteger) .sampleRate
  let bitDepth ← get row (nullable readInteger) .bitDepth
  let channels ← get row (nullable readInteger) .channels
  let artworkId ← get row (nullable readUuid) .artworkId
  let genre ← get row (nullable readText) .genre
  let year ← get row (nullable readInteger) .year
  let trackNumber ← get row (nullable readInteger) .trackNumber
  let discNumber ← get row (nullable readInteger) .discNumber
  let contentHash ← get row (nullable readText) .contentHash
  let fileSize := tryGet row readInteger .fileSize
  let fileMtimeNs := tryGet row readInteger .fileMtimeNs
  let createdAt ← get row readTime .createdAt
  let updatedAt ← get row readTime .updatedAt
  pure (
    { id := id
      trackId := trackId
      playedAt := playedAt
      durationMs := durationMs.map (asUnsigned 64)
      scrobbled := scrobbled ≠ 0 },
    { id := trackId
      title := title
      artist := artist
      album := album
      albumArtist := albumArtist
      durationMs := tDurationMs.map (asUnsigned 64)
      filePath := filePath
      format := parseFormat format
      sampleRate := sampleRate.map (asUnsigned 32)
      bitDepth := bitDepth.map (asUnsigned 8)
      channels := channels.map (asUnsigned 8)
      artworkId := artworkId
      genre := genre
      year := year.map asI32
      trackNumber := trackNumber.map (asUnsigned 32)
      discNumber := discNumber.map (asUnsigned 32)
      contentHash := contentHash
      fileSize := fileSize.map (asUnsigned 64)
      fileMtimeNs := fileMtimeNs
      starred := false
      rating := 0
      starredAt := none
      replaygainTrackGain := none
      replaygainTrackPeak := none
      createdAt := createdAt
      updatedAt := updatedAt })

/-! ## The queries -/

def select (columns : List Column) (value : ResultRow) : ResultRow := fun column =>
  if column ∈ columns then value column else none

/-- A column of the join: of `play_history ph` or of `tracks t`, under a name of its own. -/
inductive Joined where
  | ph (column : Column)
  | t (column : Column)

def Joined.value (row : PlayRow) : Joined → Option Value
  | ph column => row.value column
  | t column => row.track.value column

/-- A result of the join has the columns that its statement names, by the names that it gives them. -/
def selectJoined (columns : Column → Option Joined) (row : PlayRow) : ResultRow := fun column =>
  (columns column).bind (Joined.value row)

def trackColumns : List Column :=
  [.id, .title, .artist, .album, .albumArtist, .durationMs, .filePath, .format, .sampleRate,
    .bitDepth, .channels, .artworkId, .genre, .year, .trackNumber, .discNumber, .contentHash,
    .fileSize, .fileMtimeNs, .starred, .rating, .starredAt, .replaygainTrackGain,
    .replaygainTrackPeak, .createdAt, .updatedAt]

def playlistColumns : List Column :=
  [.id, .name, .description, .trackCount, .shareCode, .isPublic, .createdAt, .updatedAt]

/-- The column list of both queries of `get_play_history`: the names, and what they are the names of. -/
def playHistoryColumns : Column → Option Joined
  | .id => some (.ph .id)
  | .trackId => some (.ph .trackId)
  | .playedAt => some (.ph .playedAt)
  | .durationMs => some (.ph .durationMs)
  | .scrobbled => some (.ph .scrobbled)
  | .tId => some (.t .id)
  | .title => some (.t .title)
  | .artist => some (.t .artist)
  | .album => some (.t .album)
  | .albumArtist => some (.t .albumArtist)
  | .tDurationMs => some (.t .durationMs)
  | .filePath => some (.t .filePath)
  | .format => some (.t .format)
  | .sampleRate => some (.t .sampleRate)
  | .bitDepth => some (.t .bitDepth)
  | .channels => some (.t .channels)
  | .artworkId => some (.t .artworkId)
  | .genre => some (.t .genre)
  | .year => some (.t .year)
  | .trackNumber => some (.t .trackNumber)
  | .discNumber => some (.t .discNumber)
  | .contentHash => some (.t .contentHash)
  | .createdAt => some (.t .createdAt)
  | .updatedAt => some (.t .updatedAt)
  | _ => none

/-- The column list of `get_unscrobbled`, which has no `content_hash`. -/
def unscrobbledColumns : Column → Option Joined
  | .id => some (.ph .id)
  | .trackId => some (.ph .trackId)
  | .playedAt => some (.ph .playedAt)
  | .durationMs => some (.ph .durationMs)
  | .scrobbled => some (.ph .scrobbled)
  | .tId => some (.t .id)
  | .title => some (.t .title)
  | .artist => some (.t .artist)
  | .album => some (.t .album)
  | .albumArtist => some (.t .albumArtist)
  | .tDurationMs => some (.t .durationMs)
  | .filePath => some (.t .filePath)
  | .format => some (.t .format)
  | .sampleRate => some (.t .sampleRate)
  | .bitDepth => some (.t .bitDepth)
  | .channels => some (.t .channels)
  | .artworkId => some (.t .artworkId)
  | .genre => some (.t .genre)
  | .year => some (.t .year)
  | .trackNumber => some (.t .trackNumber)
  | .discNumber => some (.t .discNumber)
  | .createdAt => some (.t .createdAt)
  | .updatedAt => some (.t .updatedAt)
  | _ => none

inductive TrackQuery where
  | getAlbumTracks | getArtistTracks | findTracksByContentHash | getStarredTracks
  | listTracks | searchTracks | searchTracksAdvanced | listTracksPaged | getTrack
  | findTrackByPath | findTracksByPaths

inductive PlaylistQuery where
  | listPlaylists | getPlaylist | findPlaylistByShareCode

inductive PlayQuery where
  | getPlayHistory | getUnscrobbled

inductive Query where
  | tracks (query : TrackQuery)
  | playlists (query : PlaylistQuery)
  | plays (query : PlayQuery)

namespace Query

def Row : Query → Type
  | tracks _ => TrackRow
  | playlists _ => PlaylistRow
  | plays _ => PlayRow

def Element : Query → Type
  | tracks _ => Track
  | playlists _ => PlaylistRecord
  | plays _ => PlayRecord × Track

def first : Query → Bool
  | tracks .getTrack | tracks .findTrackByPath => true
  | playlists .getPlaylist | playlists .findPlaylistByShareCode => true
  | _ => false

def decode : (q : Query) → q.Row → Except Panic q.Element
  | tracks _, row => rowToTrack (select trackColumns row.value)
  | playlists _, row => rowToPlaylist (select playlistColumns row.value)
  | plays .getPlayHistory, row =>
    rowToPlayHistoryWithTrack (selectJoined playHistoryColumns row)
  | plays .getUnscrobbled, row =>
    rowToPlayHistoryWithTrack (selectJoined unscrobbledColumns row)

def stored : (q : Query) → q.Row → q.Element
  | tracks _, row => row.track
  | playlists _, row => row.playlist
  | plays _, row => (row.play, row.track.track)

def taken (q : Query) (selected : List q.Row) : List q.Row :=
  if q.first then selected.take 1 else selected

def run (q : Query) (selected : List q.Row) : Except Panic (List q.Element) :=
  (q.taken selected).mapM q.decode

/-- The query returns an element for each row, with what the row has stored. -/
def Returns (q : Query) (selected : List q.Row) : Prop :=
  q.run selected = .ok ((q.taken selected).map q.stored)

end Query

structure TrackRow.Plain (row : TrackRow) : Prop where
  fileSize : row.fileSize = none
  fileMtimeNs : row.fileMtimeNs = none
  starred : row.starred = 0
  rating : asUnsigned 8 row.rating = 0
  starredAt : row.starredAt = none
  replaygainTrackGain : row.replaygainTrackGain = none
  replaygainTrackPeak : row.replaygainTrackPeak = none

def Query.Readable : (q : Query) → q.Row → Prop
  | tracks _, _ => True
  | playlists _, _ => True
  | plays .getPlayHistory, row => row.track.Plain
  | plays .getUnscrobbled, _ => False

/-! ## What the decoders find -/

section Get

variable {α β : Type} {columns : List Column} {value : ResultRow} {read : Value → Option α}
  {column : Column}

theorem ok_bind (a : α) (f : α → Except Panic β) : (Except.ok a >>= f) = f a := rfl

theorem error_bind (e : Panic) (f : α → Except Panic β) : (Except.error e >>= f) = .error e := rfl

theorem get_select (h : column ∈ columns) : get (select columns value) read column =
    get value read column := by
  simp only [get, select, if_pos h]

theorem tryGet_select (h : column ∈ columns) : tryGet (select columns value) read column =
    tryGet value read column := by
  simp only [tryGet, select, if_pos h]

end Get

theorem rowToTrack_select (row : TrackRow) :
    rowToTrack (select trackColumns row.value) = .ok row.track := by
  simp (disch := decide) only [rowToTrack, get_select, tryGet_select]
  simp only [get, tryGet, TrackRow.value, Option.bind_some, nullable_integer, nullable_real,
    nullable_text, nullable_uuid, readInteger_integer, readText_text, readUuid_uuid,
    readTime_time, Option.join_some, ok_bind]
  rfl

theorem rowToPlaylist_select (row : PlaylistRow) :
    rowToPlaylist (select playlistColumns row.value) = .ok row.playlist := by
  simp (disch := decide) only [rowToPlaylist, get_select]
  simp only [get, PlaylistRow.value, nullable_text, readInteger_integer, readText_text,
    readUuid_uuid, readTime_time, ok_bind]
  rfl

def TrackRow.left (row : TrackRow) : Track :=
  { row.track with
    fileSize := none
    fileMtimeNs := none
    starred := false
    rating := 0
    starredAt := none
    replaygainTrackGain := none
    replaygainTrackPeak := none }

theorem row_to_play_history_select (row : PlayRow) :
    rowToPlayHistoryWithTrack (selectJoined playHistoryColumns row) =
      .ok (row.play, row.track.left) := by
  simp only [rowToPlayHistoryWithTrack, get, tryGet, selectJoined, playHistoryColumns,
    Option.bind_some, Option.bind_none, Joined.value, PlayRow.value, TrackRow.value, nullable_integer,
    nullable_text, nullable_uuid, readInteger_integer, readText_text, readUuid_uuid,
    readTime_time, ok_bind]
  rfl

theorem row_to_unscrobbled_select (row : PlayRow) :
    rowToPlayHistoryWithTrack (selectJoined unscrobbledColumns row) =
      .error (.columnNotFound .contentHash) := by
  simp only [rowToPlayHistoryWithTrack, get, selectJoined, unscrobbledColumns,
    Option.bind_some, Option.bind_none, Joined.value, PlayRow.value, TrackRow.value, nullable_integer,
    nullable_text, nullable_uuid, readInteger_integer, readText_text, readUuid_uuid,
    readTime_time, ok_bind, error_bind]

/-- The two decoders of a track read the same exactly from a plain row. -/
theorem left_eq_track_iff (row : TrackRow) : row.left = row.track ↔ row.Plain := by
  constructor
  · intro h
    have hsize : none = row.fileSize.map (asUnsigned 64) := congrArg Track.fileSize h
    have hmtime : none = row.fileMtimeNs := congrArg Track.fileMtimeNs h
    have hstarred : false = decide (row.starred ≠ 0) := congrArg Track.starred h
    have hrating : 0 = asUnsigned 8 row.rating := congrArg Track.rating h
    have hstarredAt : none = row.starredAt := congrArg Track.starredAt h
    have hgain : none = row.replaygainTrackGain := congrArg Track.replaygainTrackGain h
    have hpeak : none = row.replaygainTrackPeak := congrArg Track.replaygainTrackPeak h
    constructor
    · exact Option.map_eq_none_iff.mp hsize.symm
    · exact hmtime.symm
    · simpa using hstarred.symm
    · exact hrating.symm
    · exact hstarredAt.symm
    · exact hgain.symm
    · exact hpeak.symm
  · intro h
    simp [TrackRow.left, TrackRow.track, h.fileSize, h.fileMtimeNs, h.starred, h.rating,
      h.starredAt, h.replaygainTrackGain, h.replaygainTrackPeak]

theorem decode_eq_stored_iff (q : Query) (row : q.Row) :
    q.decode row = .ok (q.stored row) ↔ q.Readable row := by
  match q, row with
  | .tracks _, row => exact iff_of_true (rowToTrack_select row) trivial
  | .playlists _, row => exact iff_of_true (rowToPlaylist_select row) trivial
  | .plays .getPlayHistory, row =>
    have hdecode : Query.decode (.plays .getPlayHistory) row = .ok (row.play, row.track.left) :=
      row_to_play_history_select row
    rw [hdecode]
    exact Iff.trans ⟨fun h => (Prod.mk.inj (Except.ok.inj h)).2, fun h => by rw [h]; rfl⟩
      (left_eq_track_iff row.track)
  | .plays .getUnscrobbled, row =>
    have hdecode : Query.decode (.plays .getUnscrobbled) row =
      .error (.columnNotFound .contentHash) := row_to_unscrobbled_select row
    rw [hdecode]
    exact iff_of_false nofun id

theorem mapM_eq_ok_map_iff {α β : Type} {f : α → Except Panic β} {g : α → β} {rows : List α} :
    rows.mapM f = .ok (rows.map g) ↔ ∀ row ∈ rows, f row = .ok (g row) := by
  induction rows with
  | nil => simp [pure, Except.pure]
  | cons row rest ih =>
    rw [List.mapM_cons, List.map_cons, List.forall_mem_cons, ← ih]
    cases hrow : f row with
    | error e => exact iff_of_false nofun fun h => nomatch h.1
    | ok a =>
      rw [ok_bind]
      cases hrest : rest.mapM f with
      | error e => exact iff_of_false nofun fun h => nomatch h.2
      | ok as =>
        rw [ok_bind]
        simp [pure, Except.pure]

def onePlay : PlayRow where
  id := 1
  playedAt := 0
  durationMs := none
  scrobbled := 0
  track := {
    id := 7
    title := none
    artist := none
    album := none
    albumArtist := none
    durationMs := none
    filePath := "/music/a.flac"
    format := "flac"
    sampleRate := none
    bitDepth := none
    channels := none
    artworkId := none
    genre := none
    year := none
    trackNumber := none
    discNumber := none
    contentHash := none
    fileSize := none
    fileMtimeNs := none
    starred := 0
    rating := 0
    starredAt := none
    replaygainTrackGain := none
    replaygainTrackPeak := none
    createdAt := 0
    updatedAt := 0 }

end MichiServer.Catalog
