import Mathlib
import MichiServer.Basic
import MichiServer.Files.Names
import MichiServer.Text.Lines

/-!
# Serving media

`stream_handler` sends the file of a track: whole, in part, or converted by ffmpeg. It opens the
file by its canonical path, which must lie in a music root. For HLS it sends a playlist from the
track's directory in the cache, whose segments `hls_segment_handler` sends: by a path it joins from
the id and the segment in the request.

The model is of one request over a file tree. ffmpeg is outside: what it makes of a file, and the disk
it leaves after writing segments. A response says by which path the file was read that its body is
of; what only goes to the log is left out.
-/

namespace MichiServer.Streaming

open MichiServer.Files MichiServer.Text

inductive StreamError where
  | fileNotFound (message : String)
  | unsafePath (canonical : Path)
  | io (message : String)
  | invalidRange (message : String)

/-! ## Ranges -/

structure ByteRange where
  start : ℕ
  «end» : ℕ
  total : ℕ
  start_le : start ≤ «end»
  end_lt : «end» < total

def ByteRange.contentLength (r : ByteRange) : ℕ := r.end - r.start + 1

def ByteRange.contentRangeHeader (r : ByteRange) : String :=
  let (first, last, total) := (r.start, r.end, r.total)
  s!"bytes {first}-{last}/{total}"

def parseU64 (s : String) : Option ℕ := parseUint 64 s.toList

def rangeOf (start last total : ℕ) (message : String) : Except StreamError ByteRange :=
  if h : start ≤ last ∧ last < total then .ok ⟨start, last, total, h.1, h.2⟩
  else .error (.invalidRange message)

def parseRange (header : String) (fileSize : ℕ) : Except StreamError ByteRange :=
  match stripPrefix (trim header) "bytes=" with
  | none => .error (.invalidRange "must start with 'bytes='")
  | some rest =>
    match splitAtFirst ['-'] (trim rest).toList with
    | none => .error (.invalidRange "missing '-' in range")
    | some (before, after) =>
      let startStr := trim (String.ofList before)
      let endStr := trim (String.ofList after)
      if startStr = "" ∧ endStr = "" then .error (.invalidRange "empty range")
      else if fileSize = 0 then
        .error (.invalidRange "range not satisfiable for empty file")
      else if startStr = "" then
        match parseU64 endStr with
        | none => .error (.invalidRange "invalid suffix range")
        | some suffix =>
          if suffix = 0 then .error (.invalidRange "suffix range of zero")
          else rangeOf (fileSize - suffix) (fileSize - 1) fileSize "suffix range out of bounds"
      else
        match parseU64 startStr with
        | none => .error (.invalidRange "invalid start offset")
        | some start =>
          if start ≥ fileSize then .error (.invalidRange "start beyond file size")
          else if endStr = "" then
            rangeOf start (fileSize - 1) fileSize "start after end"
          else
            match parseU64 endStr with
            | none => .error (.invalidRange "invalid end offset")
            | some e => rangeOf start (min e (fileSize - 1)) fileSize "start after end"

/-! ## Formats -/

inductive TranscodeFormat where
  | mp3
  | ogg
  | opus
  | hls
  | pcm
deriving DecidableEq

def TranscodeFormat.fromStr (s : String) : Option TranscodeFormat :=
  match toLowercase s with
  | "mp3" => some .mp3
  | "ogg" => some .ogg
  | "opus" => some .opus
  | "hls" => some .hls
  | "pcm" => some .pcm
  | "wav" => some .pcm
  | _ => none

def TranscodeFormat.mimeType : TranscodeFormat → String
  | mp3 => "audio/mpeg"
  | ogg => "audio/ogg"
  | opus => "audio/ogg"
  | hls => "application/vnd.apple.mpegurl"
  | pcm => "audio/wav"

def mimeTypeForExt (ext : String) : String := (AudioFormat.fromExtension ext).mimeType

def mimeFromExt (filePath : Path) : String :=
  (((extension filePath).bind fromUtf8).map mimeTypeForExt).getD "application/octet-stream"

/-! ## The server -/

abbrev MediaDisk := Disk (List UInt8)

/-- What ffmpeg does: the disk it leaves when it has written segments, and the stream it makes. -/
structure Ffmpeg where
  available : Bool
  segment : Path → Path → MediaDisk → Except String MediaDisk
  transcode : List UInt8 → TranscodeFormat → Except String (List UInt8)

structure MediaServer where
  streamDisabled : Bool
  musicPaths : List Path
  cachePath : Path
  getTrack : Uuid → Except String (Option String)

/-- A response, with the path by which the file was read that its body is of. -/
structure Served where
  status : ℕ
  headers : List (String × String)
  body : List UInt8
  read : Path

section

variable (disk : MediaDisk)

/-- `validate_track_path`: the canonical path of a file in a music root. -/
def validateTrackPath (musicPaths : List Path) (filePath : String) :
    Except StreamError Path :=
  match disk.resolve (asBytes filePath) with
  | none => .error (.fileNotFound s!"file not found: {filePath}")
  | some canonicalFile =>
    if musicPaths.any fun musicPath =>
        (disk.resolve musicPath).any fun canonicalBase =>
          canonicalBase.isPrefixOf canonicalFile
    then .ok (render canonicalFile)
    else .error (.unsafePath (render canonicalFile))

def readFile (path : Path) : Except String (List UInt8) :=
  match disk.openPath path with
  | some (.file content) => .ok content
  | some (.dir _) => .error "Is a directory (os error 21)"
  | _ => .error "No such file or directory (os error 2)"

/-- `open_track_file_async`: the canonical path, and what is in the file. -/
def openTrackFileAsync (musicPaths : List Path) (filePath : String) :
    Except StreamError (Path × List UInt8) :=
  match validateTrackPath disk musicPaths filePath with
  | .error e => .error e
  | .ok canonical =>
    match readFile disk canonical with
    | .ok content => .ok (canonical, content)
    | .error _ =>
      let shown := fromUtf8Lossy canonical
      .error (.fileNotFound s!"file does not exist: {shown}")

def hlsOutputDir (cachePath : Path) (trackId : String) : Path :=
  join (join cachePath (asBytes "hls")) (asBytes trackId)

def hlsSegmentPath (cachePath : Path) (trackId segment : String) : Path :=
  join (hlsOutputDir cachePath trackId) (asBytes segment)

def playlistPath (cachePath : Path) (trackId : String) : Path :=
  hlsSegmentPath cachePath trackId "playlist.m3u8"

def uuidText (id : Uuid) : String :=
  let digits := (List.range 32).map fun i => (id / 16 ^ (31 - i) % 16).digitChar
  String.ofList (digits.take 8 ++ '-' :: (digits.drop 8).take 4 ++ '-' :: (digits.drop 12).take 4 ++
    '-' :: (digits.drop 16).take 4 ++ '-' :: digits.drop 20)

def errResponse {α : Type} (status : ℕ) (message : String) : Except (ℕ × String) α :=
  .error (status, message)

def pathError {α : Type} : StreamError → Except (ℕ × String) α
  | .fileNotFound message => errResponse 404 message
  | .unsafePath _ => errResponse 403 "access denied"
  | _ => errResponse 500 "internal server error"

def absolutePlaylist (trackId playlist : String) : String :=
  let lines := (playlist.toList.splitOn '\n').map fun line =>
    if line.getLast? = some '\r' then line.dropLast else line
  let lines := if lines.getLast? = some [] then lines.dropLast else lines
  "\n".intercalate (lines.map fun line =>
    let line := String.ofList line
    if endsWith line ".ts" then s!"/api/hls/{trackId}/" ++ line else line)

end

section

variable (server : MediaServer) (ffmpeg : Ffmpeg) (disk : MediaDisk)

def servePlaylist (id : Uuid) (canonical : Path) : Except (ℕ × String) Served :=
  let trackId := uuidText id
  let path := playlistPath server.cachePath trackId
  let generated :=
    if (disk.openPath path).isSome then .ok disk
    else ffmpeg.segment canonical (hlsOutputDir server.cachePath trackId) disk
  match generated with
  | .error _ => errResponse 500 "HLS generation failed"
  | .ok disk =>
    match (readFile disk path).toOption.bind fromUtf8 with
    | none => errResponse 500 "HLS playlist read failed"
    | some playlist => .ok {
        status := 200
        headers := [("content-type", "application/vnd.apple.mpegurl")]
        body := asBytes (absolutePlaylist trackId playlist)
        read := path }

/-- The branch for a format: the file is validated and given to ffmpeg. -/
def serveTranscoded (id : Uuid) (filePath format : String) : Except (ℕ × String) Served :=
  if !ffmpeg.available then errResponse 400 "ffmpeg is not available on this system"
  else
    match TranscodeFormat.fromStr format with
    | none => errResponse 400 s!"invalid format: '{format}'. Supported: mp3, ogg, hls"
    | some tf =>
      match validateTrackPath disk server.musicPaths filePath with
      | .error e => pathError e
      | .ok canonical =>
        if tf = .hls then servePlaylist server ffmpeg disk id canonical
        else
          match readFile disk canonical with
          | .error _ => errResponse 500 "transcoding failed"
          | .ok content =>
            match ffmpeg.transcode content tf with
            | .error _ => errResponse 500 "transcoding failed"
            | .ok body => .ok {
                status := 200
                headers := [("content-type", tf.mimeType)]
                body
                read := canonical }

/-- The branch without a format: the file, or the range that is asked for. A header that is not
visible ASCII is no text. -/
def serveDirect (filePath : String) (rangeHeader : Option (Option String)) :
    Except (ℕ × String) Served :=
  match openTrackFileAsync disk server.musicPaths filePath with
  | .error e => pathError e
  | .ok (canonical, content) =>
    let fileSize := content.length
    let mime := mimeFromExt (asBytes filePath)
    match rangeHeader with
    | none => .ok {
        status := 200
        headers := [("content-type", mime), ("content-length", toString fileSize),
          ("accept-ranges", "bytes")]
        body := content
        read := canonical }
    | some none => errResponse 400 "invalid range header encoding"
    | some (some rangeStr) =>
      match parseRange rangeStr fileSize with
      | .ok range => .ok {
          status := 206
          headers := [("content-type", mime), ("content-range", range.contentRangeHeader),
            ("content-length", toString range.contentLength), ("accept-ranges", "bytes")]
          body := (content.drop range.start).take range.contentLength
          read := canonical }
      | .error (.invalidRange message) => errResponse 416 s!"range not satisfiable: {message}"
      | .error _ => errResponse 500 "internal server error"

def streamHandler (id : Uuid) (format : Option String) (rangeHeader : Option (Option String)) :
    Except (ℕ × String) Served :=
  if server.streamDisabled then errResponse 503 "Streaming module is disabled"
  else
    match server.getTrack id with
    | .error e => errResponse 500 s!"db error: {e}"
    | .ok none =>
      let shown := uuidText id
      errResponse 404 s!"track not found: {shown}"
    | .ok (some filePath) =>
      match format with
      | some format => serveTranscoded server ffmpeg disk id filePath format
      | none => serveDirect server disk filePath rangeHeader

/-- `hls_segment_handler`, of an id and a segment as they are decoded from the request. -/
def hlsSegmentHandler (id segment : String) : Except (ℕ × String) Served :=
  if server.streamDisabled then errResponse 503 "Streaming module is disabled"
  else
    let path := hlsSegmentPath server.cachePath id segment
    if (disk.openPath path).isNone then errResponse 404 "HLS segment not found"
    else
      match readFile disk path with
      | .error e => errResponse 500 s!"failed to read segment: {e}"
      | .ok data => .ok {
          status := 200
          headers := [("content-type", "video/MP2T"), ("content-length", toString data.length)]
          body := data
          read := path }

end

end MichiServer.Streaming
