import MichiServer.Streaming.Serve

/-!
# Where served media lies

The file that a response's body is of, by its place in the tree: in a music root for a track, in the
HLS directory of a track for a playlist and a segment.

`stream_handler` compares canonical places, so no link leads it out of the roots. `hls_segment_handler`
compares nothing. When its walk meets no link, what it sends is in the directory of the track exactly
when the text of the request says so.
-/

namespace MichiServer.Streaming

open MichiServer.Files MichiServer.Text

def InMusicRoot (disk : MediaDisk) (musicPaths : List Path) (loc : Location) : Prop :=
  ∃ musicPath ∈ musicPaths, ∃ base, disk.resolve musicPath = some base ∧ base <+: loc

def InTrackDirectory (disk : MediaDisk) (cachePath : Path) (id : String) (loc : Location) : Prop :=
  IsName (asBytes id) ∧
    ∃ dir, disk.resolve (hlsOutputDir cachePath id) = some dir ∧ dir <+: loc

def hlsRoot (cachePath : Path) : Path := join cachePath (asBytes "hls")

/-- Where the text of a segment leads from the directory of the track, of which `base` is the text. -/
def segmentText (base : List (List UInt8)) (segment : Path) : List (List UInt8) :=
  lexical (if isAbsolute segment then [] else base) (components segment)

/-- The id names a track, and by its text the segment stays in the HLS directory or comes back
to it. -/
def StaysInText (disk : MediaDisk) (cachePath : Path) (id segment : String) : Prop :=
  IsName (asBytes id) ∧ ∃ base, disk.resolve (hlsRoot cachePath) = some base ∧
    base.map FileName.bytes ++ [asBytes id] <+:
      segmentText (base.map FileName.bytes ++ [asBytes id]) (asBytes segment)

/-- No link is met on the way from the directory of all HLS directories, nor from the root when the
segment starts there. -/
structure NoLinkMet (disk : MediaDisk) (cachePath : Path) (id segment : String) : Prop where
  below : ∀ base, disk.resolve (hlsRoot cachePath) = some base →
    disk.tree.meetsLink base (asBytes id ::
      if isAbsolute (asBytes segment) then [] else components (asBytes segment)) = false
  from_root : isAbsolute (asBytes segment) = true →
    disk.tree.meetsLink [] (components (asBytes segment)) = false

/-! ## Music roots -/

section

variable {disk : MediaDisk}

theorem validate_contained {musicPaths : List Path} {filePath : String} {canonical : Path}
    (h : validateTrackPath disk musicPaths filePath = .ok canonical) :
    ∃ loc, canonical = render loc ∧ disk.resolve canonical = some loc ∧
      InMusicRoot disk musicPaths loc := by
  unfold validateTrackPath at h
  split at h
  · cases h
  next loc hresolve =>
    split at h
    next hany =>
      cases h
      refine ⟨loc, rfl, Disk.resolve_render (Disk.real_resolve hresolve), ?_⟩
      obtain ⟨musicPath, hmem, hbase⟩ := List.any_eq_true.mp hany
      obtain ⟨base, hresolved, hprefix⟩ := (Option.any_eq_true _ _).mp hbase
      exact ⟨musicPath, hmem, base, hresolved, List.isPrefixOf_iff_prefix.mp hprefix⟩
    · cases h

theorem open_contained {musicPaths : List Path} {filePath : String} {canonical : Path}
    {content : List UInt8}
    (h : openTrackFileAsync disk musicPaths filePath = .ok (canonical, content)) :
    readFile disk canonical = .ok content ∧
    ∃ loc, disk.resolve canonical = some loc ∧ InMusicRoot disk musicPaths loc := by
  grind [openTrackFileAsync, validate_contained]

theorem readFile_eq_ok {path : Path} {content : List UInt8} :
    readFile disk path = .ok content ↔ disk.openPath path = some (.file content) := by
  grind [readFile]

theorem resolve_of_read {path : Path} {content : List UInt8}
    (h : readFile disk path = .ok content) : ∃ loc, disk.resolve path = some loc := by
  obtain ⟨loc, hloc, -⟩ := Option.bind_eq_some_iff.mp (readFile_eq_ok.mp h)
  exact ⟨loc, hloc⟩

/-! ## HLS directories -/

theorem bytes_injective : Function.Injective FileName.bytes := fun _ _ h => FileName.ext h

theorem joinable_hlsRoot (cachePath : Path) : Joinable (hlsRoot cachePath) :=
  joinable_join cachePath (by decide)

theorem prefix_iff_text {dir loc : Location} :
    dir <+: loc ↔ dir.map FileName.bytes <+: loc.map FileName.bytes :=
  (List.prefix_map_iff_of_injective bytes_injective).symm

theorem real_of_text {base loc : Location} {bytes : List UInt8} (h : disk.tree.Real loc)
    (hstarts : base.map FileName.bytes ++ [bytes] <+: loc.map FileName.bytes) :
    ∃ name : FileName, name.bytes = bytes ∧ disk.tree.Real (base ++ [name]) ∧
      base ++ [name] <+: loc := by
  obtain ⟨front, hfront, htext⟩ := List.prefix_map_iff.mp hstarts
  obtain ⟨above, last, hsplit, habove, hlast⟩ := List.map_eq_append_iff.mp htext.symm
  obtain ⟨name, hname, hbytes⟩ := List.map_eq_singleton_iff.mp hlast
  have hbase : above = base := List.map_injective_iff.mpr bytes_injective habove
  subst hbase hname
  rw [hsplit] at hfront
  obtain ⟨back, hback⟩ := hfront
  grind [Node.real_front]

variable {cachePath : Path} {id segment : String} {base loc : Location}

variable (disk cachePath) in
/-- The directory of a track, and what is resolved in it. -/
theorem resolve_track (hname : IsName (asBytes id)) :
    (disk.resolve (hlsRoot cachePath) = none ∧
      disk.resolve (hlsOutputDir cachePath id) = none ∧
      ∀ segment, isAbsolute (asBytes segment) = false →
        disk.resolve (hlsSegmentPath cachePath id segment) = none) ∨
    ∃ base left, disk.resolve (hlsRoot cachePath) = some base ∧
      disk.resolve (hlsOutputDir cachePath id) = disk.tree.walk left base [asBytes id] ∧
      ∀ segment, isAbsolute (asBytes segment) = false →
        disk.resolve (hlsSegmentPath cachePath id segment) =
          disk.tree.walk left base (asBytes id :: components (asBytes segment)) := by
  have hjoinable := joinable_hlsRoot cachePath
  have hid := isAbsolute_of_not_mem hname.no_slash
  have hpath : ∀ segment, isAbsolute (asBytes segment) = false →
      hlsSegmentPath cachePath id segment =
        join (hlsRoot cachePath) (asBytes id ++ slash :: asBytes segment) :=
    fun segment hsegment => join_join_name hjoinable hname hsegment
  have hcomps : ∀ segment, components (asBytes id ++ slash :: asBytes segment) =
      asBytes id :: components (asBytes segment) :=
    fun segment => Node.components_name ⟨asBytes id, hname⟩ (asBytes segment)
  rcases Node.resolve_join disk.tree disk.cwd hjoinable with ⟨hnone, hall⟩ |
    ⟨base, left, hbase, hall⟩
  · refine .inl ⟨hnone, hall _ hid, ?_⟩
    intro segment hsegment
    rw [hpath segment hsegment]
    exact hall _ (hname.isAbsolute _)
  · refine .inr ⟨base, left, hbase, ?_, ?_⟩
    · rw [← components_of_name hname]
      exact hall _ hid
    · intro segment hsegment
      rw [hpath segment hsegment, ← hcomps]
      exact hall _ (hname.isAbsolute _)

theorem resolve_output_dir {name : FileName} (hname : name.bytes = asBytes id)
    (hbase : disk.resolve (hlsRoot cachePath) = some base)
    (hreal : disk.tree.Real (base ++ [name])) :
    disk.resolve (hlsOutputDir cachePath id) = some (base ++ [name]) := by
  have hid : IsName (asBytes id) := hname ▸ name.is_name
  rcases resolve_track disk cachePath hid with ⟨hnone, -, -⟩ |
    ⟨other, left, hother, hdir, -⟩
  · rw [hbase] at hnone
    cases hnone
  · rw [hbase] at hother
    cases hother
    rw [hdir, ← hname]
    exact Node.walk_names left hreal

theorem relative_contained (hsegment : isAbsolute (asBytes segment) = false)
    (hlink : NoLinkMet disk cachePath id segment)
    (hloc : disk.resolve (hlsSegmentPath cachePath id segment) = some loc) :
    InTrackDirectory disk cachePath id loc ↔ StaysInText disk cachePath id segment := by
  apply and_congr_right
  intro hname
  have hbelow := hlink.below
  rw [hsegment, if_neg Bool.false_ne_true] at hbelow
  rcases resolve_track disk cachePath hname with ⟨hnone, hdir, -⟩ |
    ⟨base, left, hbase, -, hall⟩
  · simp [hnone, hdir]
  · rw [hall segment hsegment] at hloc
    obtain ⟨name, hbytes, hreal, hrest, hwalk⟩ := Node.walk_first hname (hbelow base hbase) hloc
    have htext : (base ++ [name]).map FileName.bytes =
        base.map FileName.bytes ++ [asBytes id] := by
      rw [List.map_append, List.map_singleton, hbytes]
    grind [Node.walk_lexical, resolve_output_dir, segmentText, prefix_iff_text]

/-- An absolute segment is contained where no link is met. -/
theorem absolute_contained (hsegment : isAbsolute (asBytes segment) = true)
    (hlink : NoLinkMet disk cachePath id segment)
    (hloc : disk.resolve (hlsSegmentPath cachePath id segment) = some loc) :
    InTrackDirectory disk cachePath id loc ↔ StaysInText disk cachePath id segment := by
  apply and_congr_right
  intro hname
  have hpath : hlsSegmentPath cachePath id segment = asBytes segment := by
    rw [hlsSegmentPath, join, if_pos hsegment]
  have hbelow := hlink.below
  rw [if_pos hsegment] at hbelow
  rw [hpath] at hloc
  have hreal := Disk.real_resolve hloc
  have hwalk : disk.tree.walk Node.maxLinks [] (components (asBytes segment)) = some loc := by
    grind [Disk.resolve, Node.resolve, startOf]
  have hlexical : loc.map FileName.bytes = lexical [] (components (asBytes segment)) :=
    Node.walk_lexical (hlink.from_root hsegment) hwalk
  simp only [segmentText, hsegment, if_true, ← hlexical]
  constructor
  · grind [resolve_track, Node.walk_first, Node.walk_nil]
  · grind [real_of_text, resolve_output_dir]

theorem segment_contained (hlink : NoLinkMet disk cachePath id segment)
    (hloc : disk.resolve (hlsSegmentPath cachePath id segment) = some loc) :
    InTrackDirectory disk cachePath id loc ↔ StaysInText disk cachePath id segment := by
  grind [isAbsolute, asBytes, absolute_contained, relative_contained]

/-! ## Playlists -/

theorem uuidText_chars (id : Uuid) : ∃ chars, uuidText id = String.ofList chars ∧ chars ≠ [] ∧
    ∀ c ∈ chars, c ∈ "0123456789abcdef-".toList := by
  have hdigit : ∀ n < 16, n.digitChar ∈ "0123456789abcdef-".toList := by decide
  have hdash : '-' ∈ "0123456789abcdef-".toList := by decide
  refine ⟨_, rfl, by simp, ?_⟩
  generalize hdigits : ((List.range 32).map fun i => (id / 16 ^ (31 - i) % 16).digitChar) = digits
  have hall : ∀ c ∈ digits, c ∈ "0123456789abcdef-".toList := by
    grind
  grind

theorem is_name_uuidText (id : Uuid) : IsName (asBytes (uuidText id)) := by
  obtain ⟨chars, htext, hne, hchars⟩ := uuidText_chars id
  have hone : ∀ d ∈ "0123456789abcdef-".toList, d.utf8Size = 1 := by
    rw [← List.forall_iff_forall_mem]
    decide
  have hbyte : ∀ d ∈ "0123456789abcdef-".toList,
      d.val.toUInt8 ≠ slash ∧ d.val.toUInt8 ≠ dot ∧ d.val.toUInt8 ≠ 0 := by
    rw [← List.forall_iff_forall_mem]
    decide
  have hbytes : ∀ b ∈ asBytes (uuidText id), b ≠ slash ∧ b ≠ dot ∧ b ≠ 0 := by
    grind [asBytes_of_ascii]
  constructor
  · rw [htext, asBytes_of_ascii fun d hd => hone d (hchars d hd)]
    exact List.map_eq_nil_iff.not.mpr hne
  · grind [dot]
  · grind [dot]
  · exact fun hmem => (hbytes _ hmem).1 rfl
  · exact fun hmem => (hbytes _ hmem).2.2 rfl

theorem playlist_stays (id : Uuid) {base : Location}
    (hbase : disk.resolve (hlsRoot cachePath) = some base) :
    StaysInText disk cachePath (uuidText id) "playlist.m3u8" := by
  have hname : IsName (asBytes "playlist.m3u8") := by decide
  refine ⟨is_name_uuidText id, base, hbase, ?_⟩
  rw [segmentText, isAbsolute_of_not_mem hname.no_slash, if_neg Bool.false_ne_true,
    components_of_name hname, lexical, if_neg (not_or.mpr ⟨hname.nonempty, hname.not_current⟩),
    if_neg hname.not_parent, lexical]
  exact List.prefix_append _ _

end

/-! ## Requests -/

def TrackServed (disk : MediaDisk) (musicPaths : List Path) (served : Served) : Prop :=
  ∃ content loc, readFile disk served.read = .ok content ∧
    disk.resolve served.read = some loc ∧ InMusicRoot disk musicPaths loc

/-- The response is of a track's playlist, on the disk as it was found or as ffmpeg left it. When no
link is met on the way, the playlist is in the directory of the track. -/
def PlaylistServed (ffmpeg : Ffmpeg) (disk : MediaDisk) (cachePath : Path) (id : Uuid)
    (served : Served) : Prop :=
  ∃ after content loc,
    (after = disk ∨ ∃ canonical,
      ffmpeg.segment canonical (hlsOutputDir cachePath (uuidText id)) disk = .ok after) ∧
    served.read = playlistPath cachePath (uuidText id) ∧
    readFile after served.read = .ok content ∧ after.resolve served.read = some loc ∧
    (NoLinkMet after cachePath (uuidText id) "playlist.m3u8" →
      InTrackDirectory after cachePath (uuidText id) loc)

section

variable {server : MediaServer} {ffmpeg : Ffmpeg} {disk : MediaDisk} {served : Served}

/-- What is served of a playlist is the one that was made. -/
theorem playlist_served {id : Uuid} {canonical : Path}
    (h : servePlaylist server ffmpeg disk id canonical = .ok served) :
    PlaylistServed ffmpeg disk server.cachePath id served := by
  unfold servePlaylist at h
  extract_lets trackId path generated at h
  cases hafter : generated with
  | error e =>
    rw [hafter] at h
    cases h
  | ok after =>
    rw [hafter] at h
    dsimp only at h
    split at h
    · cases h
    next playlist hplaylist =>
      cases h
      have horigin : after = disk ∨ ∃ canonical, ffmpeg.segment canonical
          (hlsOutputDir server.cachePath (uuidText id)) disk = .ok after := by
        grind
      obtain ⟨content, hcontent, -⟩ := Option.bind_eq_some_iff.mp hplaylist
      have hread : readFile after (playlistPath server.cachePath (uuidText id)) =
          .ok content := by
        cases hfile : readFile after (playlistPath server.cachePath (uuidText id)) with
        | error e =>
          rw [hfile] at hcontent
          cases hcontent
        | ok data =>
          rw [hfile] at hcontent
          cases hcontent
          rfl
      obtain ⟨loc, hloc⟩ := resolve_of_read hread
      refine ⟨after, content, loc, horigin, rfl, hread, hloc, ?_⟩
      intro hlink
      apply (segment_contained hlink hloc).mpr
      rcases resolve_track after server.cachePath (is_name_uuidText id) with ⟨-, -, hnone⟩ |
        ⟨base, -, hbase, -, -⟩
      · have hlost : after.resolve (playlistPath server.cachePath (uuidText id)) = none :=
          hnone "playlist.m3u8" (by decide)
        rw [hlost] at hloc
        cases hloc
      · exact playlist_stays id hbase

/-- What is served transcoded is the track's file, or its playlist. -/
theorem transcoded_served {id : Uuid} {filePath format : String}
    (h : serveTranscoded server ffmpeg disk id filePath format = .ok served) :
    TrackServed disk server.musicPaths served ∨
      PlaylistServed ffmpeg disk server.cachePath id served := by
  unfold serveTranscoded at h
  split at h
  · cases h
  · split at h
    · cases h
    · split at h
      next e _ => cases e <;> cases h
      next canonical hvalid =>
        split at h
        · exact .inr (playlist_served h)
        · split at h
          · cases h
          next content hread =>
            split at h
            · cases h
            · cases h
              obtain ⟨loc, -, hloc⟩ := validate_contained hvalid
              exact .inl ⟨content, loc, hread, hloc⟩

theorem direct_served {filePath : String} {rangeHeader : Option (Option String)}
    (h : serveDirect server disk filePath rangeHeader = .ok served) :
    TrackServed disk server.musicPaths served := by
  unfold serveDirect at h
  split at h
  next e _ => cases e <;> cases h
  next canonical content hopen =>
    obtain ⟨hread, loc, hloc⟩ := open_contained hopen
    have hserved : served.read = canonical := by
      simp only at h
      split at h
      · cases h; rfl
      · cases h
      · split at h
        · cases h; rfl
        · cases h
        · cases h
    exact ⟨content, loc, by rw [hserved]; exact ⟨hread, hloc⟩⟩

theorem stream_served {id : Uuid} {format : Option String}
    {rangeHeader : Option (Option String)}
    (h : streamHandler server ffmpeg disk id format rangeHeader = .ok served) :
    TrackServed disk server.musicPaths served ∨
      PlaylistServed ffmpeg disk server.cachePath id served := by
  unfold streamHandler at h
  split at h
  · cases h
  · split at h
    · cases h
    · cases h
    · grind [transcoded_served, direct_served]

theorem segment_served {id segment : String}
    (h : hlsSegmentHandler server disk id segment = .ok served) :
    served.read = hlsSegmentPath server.cachePath id segment ∧
      readFile disk served.read = .ok served.body := by
  unfold hlsSegmentHandler at h
  split at h
  · cases h
  · simp only at h
    split at h
    · cases h
    · split at h
      · cases h
      next data hread =>
        cases h
        exact ⟨rfl, hread⟩

end

/-! ## A way out -/

def named (s : String) (h : IsName (asBytes s) := by decide) : FileName := ⟨asBytes s, h⟩

def smallDisk : MediaDisk where
  entries := [
    (named "cache", .dir [
      (named "hls", .dir [
        (named "t", .dir [(named "segment_000.ts", .file [1])])])]),
    (named "secret", .file [2])]
  cwd := []
  cwd_real := Node.real_root rfl

def smallServer : MediaServer where
  streamDisabled := false
  musicPaths := [asBytes "/music"]
  cachePath := asBytes "/cache"
  getTrack := fun _ => .ok none

/-- The segment of the track `t` is answered with the secret, which is in no music root and not in the
directory of the track. -/
def Escapes (segment : String) : Prop :=
  ∃ served loc, hlsSegmentHandler smallServer smallDisk "t" segment = .ok served ∧
    served.body = [2] ∧ smallDisk.resolve served.read = some loc ∧
    ¬ InMusicRoot smallDisk smallServer.musicPaths loc ∧
    ¬ InTrackDirectory smallDisk smallServer.cachePath "t" loc

end MichiServer.Streaming
