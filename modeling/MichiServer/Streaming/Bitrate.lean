import MichiServer.Streaming.Decision

/-!
# The bitrate given to ffmpeg

`/api/v1/stream` runs ffmpeg by the decision, `/api/stream` by the requested format alone. Neither
handler reads the address of its client, so a remote one is served as any other. The decision keeps a
lossy plan within `max_remote_bitrate`; the command line then raises it to 32 thousand, and
`/api/stream` asks for a bitrate of its own whatever the configuration allows.
-/

namespace MichiServer.Streaming

open MichiServer.Files MichiServer.Text
open MichiServer.Queue (ApiError v1Error databaseError)
open MichiServer.Settings (AudioFormatPolicy Config StreamProfile)

/-! ## The two handlers -/

structure StreamTrack where
  filePath : String
  format : AudioFormat
  sampleRate : Option ℕ
  bitDepth : Option ℕ

structure StreamServer where
  streamDisabled : Bool
  musicPaths : List Path
  cachePath : Path
  getTrack : Uuid → Except String (Option StreamTrack)
  config : Config
  /-- The permits that are left in the semaphore. -/
  transcodeSemaphore : ℕ
  checkFfmpeg : Bool

/-- What a request to `/api/v1/stream` comes to: the file as it is, or what ffmpeg makes of it. -/
inductive Dispatch where
  | streamFile (track : StreamTrack)
  | transcode (mime : String) (command : List Arg)

protected def StreamError.toString : StreamError → String
  | .fileNotFound message => "file not found on disk: " ++ message
  | .unsafePath canonical => "file outside music library: " ++ fromUtf8Lossy canonical
  | .io message => "I/O error: " ++ message
  | .invalidRange message => "invalid range header: " ++ message

/-- How a decision that fails is answered: by the code its text starts with. -/
def decisionError (e : String) : ApiError :=
  let codes := ["TRANSCODING_FORBIDDEN_BY_POLICY", "TRANSCODING_DISABLED", "INVALID_STREAM_PROFILE",
    "UNSUPPORTED_TRANSCODE_PLAN"]
  v1Error 400 ((codes.find? fun code => startsWith e code).getD "STREAM_RESOLUTION_ERROR") e

section

variable (server : StreamServer) (disk : MediaDisk)

def v1Transcode (track : StreamTrack) (mime : String) (plan : TranscodePlan) :
    Except ApiError Dispatch :=
  if server.transcodeSemaphore = 0 then
    .error (v1Error 503 "MAX_TRANSCODES_REACHED"
      "maximum concurrent transcodes reached; please retry later")
  else if !server.checkFfmpeg then
    .error (v1Error 400 "FFMPEG_UNAVAILABLE" "ffmpeg is not available on this system")
  else
    match validateTrackPath disk server.musicPaths track.filePath with
    | .error e => .error (v1Error 404 "FILE_NOT_FOUND" e.toString)
    | .ok canonical =>
      match transcodeStreamWithPlan canonical plan with
      | .error e => .error (v1Error 500 "TRANSCODING_FAILED" e.toString)
      | .ok command => .ok (.transcode mime command)

def v1StreamHandler (id : Uuid) (format : Option String) : Except ApiError Dispatch :=
  if server.streamDisabled then
    .error (v1Error 503 "MODULE_DISABLED" "Streaming module is disabled")
  else
    match server.getTrack id with
    | .error e => .error (databaseError e)
    | .ok none =>
      let shown := uuidText id
      .error (v1Error 404 "TRACK_NOT_FOUND" s!"track not found: {shown}")
    | .ok (some track) =>
      match resolveStreamDecision track.format track.sampleRate track.bitDepth format
          server.config.streamProfile server.config.formatPolicy server.config.resourceProfile
          server.config.maxRemoteBitrate with
      | .error e => .error (decisionError e)
      | .ok decision =>
        match decision.mode with
        | .direct => .ok (.streamFile track)
        | .transcode plan => v1Transcode server disk track decision.outputMimeType plan

/-- The command line ffmpeg is run with by `stream_handler` of `/api/stream`, if it is run. -/
def legacyCommand (id : Uuid) (format : Option String) : Option (List Arg) :=
  if server.streamDisabled then none
  else
    match server.getTrack id, format with
    | .ok (some track), some format =>
      if !server.checkFfmpeg then none
      else
        match TranscodeFormat.fromStr format,
            validateTrackPath disk server.musicPaths track.filePath with
        | some tf, .ok canonical =>
          if tf = .hls then
            if (disk.openPath (playlistPath server.cachePath (uuidText id))).isSome then none
            else some (generateHlsPlaylist canonical server.cachePath (uuidText id))
          else (transcodeStream canonical tf).toOption
        | _, _ => none
    | _, _ => none

inductive Route where
  | v1
  | legacy

def transcoderCommand (route : Route) (id : Uuid) (format : Option String) : Option (List Arg) :=
  match route with
  | .v1 =>
    match v1StreamHandler server disk id format with
    | .ok (.transcode _ command) => some command
    | _ => none
  | .legacy => legacyCommand server disk id format

end

/-! ## When ffmpeg is run -/

section

variable {server : StreamServer} {disk : MediaDisk} {route : Route} {id : Uuid}
  {format : Option String} {command : List Arg}

/-- What both routes ask for before they run ffmpeg, and what each asks for besides. -/
structure Runs (server : StreamServer) (disk : MediaDisk) (route : Route) (id : Uuid)
    (format : Option String) : Prop where
  enabled : server.streamDisabled = false
  installed : server.checkFfmpeg = true
  found : ∃ track canonical, server.getTrack id = .ok (some track) ∧
    validateTrackPath disk server.musicPaths track.filePath = .ok canonical
  allowed : match route with
    | .v1 => server.config.formatPolicy = .standardOnly ∧
        maxTranscodes server.config.resourceProfile ≠ 0 ∧ server.transcodeSemaphore ≠ 0
    | .legacy => format.bind TranscodeFormat.fromStr = some .hls →
        disk.openPath (playlistPath server.cachePath (uuidText id)) = none

/-- When the first route runs a command, and which. -/
theorem v1_command_eq_some_iff :
    transcoderCommand server disk .v1 id format = some command ↔
      server.streamDisabled = false ∧ ∃ track, server.getTrack id = .ok (some track) ∧
        ∃ plan, (∃ decision, resolveStreamDecision track.format track.sampleRate track.bitDepth
            format server.config.streamProfile server.config.formatPolicy
            server.config.resourceProfile server.config.maxRemoteBitrate = .ok decision ∧
            decision.mode = .transcode plan) ∧
          server.transcodeSemaphore ≠ 0 ∧ server.checkFfmpeg = true ∧
          ∃ canonical, validateTrackPath disk server.musicPaths track.filePath = .ok canonical ∧
            transcodeStreamWithPlan canonical plan = .ok command := by
  have hdispatch : transcoderCommand server disk .v1 id format = some command ↔
      ∃ mime, v1StreamHandler server disk id format = .ok (.transcode mime command) := by
    grind [transcoderCommand, v1StreamHandler]
  rw [hdispatch]
  constructor
  · rintro ⟨mime, h⟩
    unfold v1StreamHandler at h
    split at h
    · cases h
    · rename_i henabled
      split at h
      · cases h
      · cases h
      · rename_i track htrack
        split at h
        · cases h
        · grind [v1Transcode]
  · rintro ⟨henabled, track, htrack, plan, ⟨decision, hdecision, hmode⟩, hpermit, hffmpeg, canonical,
      hvalid, hcommand⟩
    refine ⟨decision.outputMimeType, ?_⟩
    grind [v1StreamHandler, v1Transcode]

def formatCommand (cachePath canonical : Path) (trackId : String) (tf : TranscodeFormat) :
    Option (List Arg) :=
  if tf = .hls then some (generateHlsPlaylist canonical cachePath trackId)
  else (transcodeStream canonical tf).toOption

/-- When the legacy route runs a command, and which. -/
theorem legacyCommand_eq_some_iff :
    transcoderCommand server disk .legacy id format = some command ↔
      server.streamDisabled = false ∧ server.checkFfmpeg = true ∧ ∃ track tf canonical,
        server.getTrack id = .ok (some track) ∧ format.bind TranscodeFormat.fromStr = some tf ∧
        validateTrackPath disk server.musicPaths track.filePath = .ok canonical ∧
        (tf = .hls → disk.openPath (playlistPath server.cachePath (uuidText id)) = none) ∧
        formatCommand server.cachePath canonical (uuidText id) tf = some command := by
  constructor
  · intro h
    change legacyCommand server disk id format = some command at h
    unfold legacyCommand at h
    split at h
    · cases h
    · rename_i henabled
      split at h
      · rename_i track f htrack
        split at h
        · cases h
        · rename_i hffmpeg
          split at h
          · rename_i tf canonical htf hvalid
            refine ⟨by simpa using henabled, by simpa using hffmpeg, track, tf, canonical, htrack, htf,
              hvalid, ?_⟩
            rw [formatCommand]
            split at h
            · rename_i hhls
              split at h
              · cases h
              · rename_i hcached
                exact ⟨fun _ => Option.not_isSome_iff_eq_none.mp hcached, by rw [if_pos hhls]; exact h⟩
            · grind
          · cases h
      · cases h
  · rintro ⟨henabled, hffmpeg, track, tf, canonical, htrack, htf, hvalid, hcached, hcommand⟩
    obtain ⟨f, rfl, hread⟩ := Option.bind_eq_some_iff.mp htf
    simp only [transcoderCommand, legacyCommand, henabled, htrack, hffmpeg, hread, hvalid]
    grind [formatCommand]

theorem transcodeStream_makes (canonical : Path) {tf : TranscodeFormat} (hhls : tf ≠ .hls) :
    ∃ made, transcodeStream canonical tf = .ok made := by
  cases tf with
  | hls => exact absurd rfl hhls
  | mp3 => exact ⟨_, rfl⟩
  | ogg => exact ⟨_, rfl⟩
  | opus => exact ⟨_, rfl⟩
  | pcm => exact ⟨_, rfl⟩

theorem formatCommand_makes (cachePath canonical : Path) (trackId : String)
    (tf : TranscodeFormat) : ∃ made, formatCommand cachePath canonical trackId tf = some made := by
  by_cases hhls : tf = .hls
  · exact ⟨_, if_pos hhls⟩
  · obtain ⟨made, hmade⟩ := transcodeStream_makes canonical hhls
    exact ⟨made, by rw [formatCommand, if_neg hhls, hmade]; rfl⟩

/-! ## The bitrate that is passed -/

def formatBitrate : TranscodeFormat → Option ℕ
  | .mp3 => some 192000
  | .opus => some 128000
  | .hls => some 192000
  | .ogg => none
  | .pcm => none

/-- The bitrate that is passed is the format's. -/
theorem passed_of_format {cachePath canonical : Path} {trackId : String} {tf : TranscodeFormat}
    (h : formatCommand cachePath canonical trackId tf = some command) :
    passedBitrate command = formatBitrate tf := by
  have hplan (hhls : tf ≠ .hls) : transcodeStreamWithPlan canonical tf.plan = .ok command := by
    rw [formatCommand, if_neg hhls, transcodeStream] at h
    cases hmade : transcodeStreamWithPlan canonical tf.plan with
    | error e =>
      rw [hmade] at h
      cases h
    | ok made =>
      rw [hmade] at h
      cases h
      rfl
  cases tf with
  | mp3 => exact passed_of_lossy (.inr (.inl rfl)) rfl (by decide) (hplan (by decide))
  | opus => exact passed_of_lossy (.inl rfl) rfl (by decide) (hplan (by decide))
  | ogg => exact passed_of_no_rate (.inr rfl) (hplan (by decide))
  | pcm => exact passed_of_no_rate (.inl rfl) (hplan (by decide))
  | hls =>
    cases h
    have hvalue : valueAfter "-b:a" (generateHlsPlaylist canonical cachePath trackId) =
        some (.text "192k") := rfl
    have hread : readBitrate "192k".toList = some 192000 := by decide +kernel
    rw [passedBitrate, hvalue]
    exact hread

def Capped (maxRemoteBitrate : ℕ) (command : Option (List Arg)) : Prop :=
  ∀ c ∈ command, ∀ bps ∈ passedBitrate c, bps ≤ maxRemoteBitrate

/-- The least cap that the bitrate of a request is within, if ffmpeg is run for it. -/
def neededCap (route : Route) (format : Option String) (streamProfile : StreamProfile) : ℕ :=
  match route with
  | .v1 => if LossyTarget format streamProfile then 32000 else 0
  | .legacy => ((format.bind TranscodeFormat.fromStr).bind formatBitrate).getD 0

/-! ### One request -/

theorem lossy_eq_ok_iff {name : String} {codec : TranscodeCodec} {container : TranscodeContainer}
    {bps cap : ℕ} {sr : Option ℕ} {policy : AudioFormatPolicy} {plan : TranscodePlan} :
    lossy sr policy cap name codec container bps = .ok (.transcode plan) ↔
      policy ≠ .losslessOnly ∧ lossyPlan sr cap codec container bps = plan := by
  grind [lossy]

theorem lossyPlan_makes (canonical : Path) {plan : TranscodePlan} (h : plan.codec.Lossy) :
    ∃ made, transcodeStreamWithPlan canonical plan = .ok made := by
  obtain hc | hc | hc := h <;>
  · simp only [transcodeStreamWithPlan, hc]
    exact ⟨_, rfl⟩

/-- For a lossy target the first route runs a command exactly where it can. -/
theorem v1_runs_iff (hlossy : LossyTarget format server.config.streamProfile) :
    (∃ c, transcoderCommand server disk .v1 id format = some c) ↔ Runs server disk .v1 id format := by
  constructor
  · rintro ⟨c, h⟩
    obtain ⟨henabled, track, htrack, plan, hdecision, hpermit, hffmpeg, canonical, hvalid, -⟩ :=
      v1_command_eq_some_iff.mp h
    obtain ⟨hdirect, htarget, hcount⟩ := resolves_to_plan_iff.mp hdecision
    obtain ⟨name, codec, container, bps, -, -, hresolve⟩ := resolve_lossy hlossy
    obtain ⟨hlossless, -⟩ := lossy_eq_ok_iff.mp ((hresolve ..).symm.trans htarget)
    have hpolicy : server.config.formatPolicy = .standardOnly := by
      cases hp : server.config.formatPolicy with
      | standardOnly => rfl
      | directPlay => exact absurd hp hdirect
      | losslessOnly => exact absurd hp hlossless
    exact ⟨henabled, hffmpeg, ⟨track, canonical, htrack, hvalid⟩, hpolicy, hcount, hpermit⟩
  · rintro ⟨henabled, hffmpeg, ⟨track, canonical, htrack, hvalid⟩, hpolicy, hcount, hpermit⟩
    obtain ⟨name, codec, container, bps, hcodec, -, hresolve⟩ := resolve_lossy hlossy
    have hplan : (lossyPlan track.sampleRate server.config.maxRemoteBitrate codec container
        bps).codec.Lossy := hcodec
    obtain ⟨made, hmade⟩ := lossyPlan_makes canonical hplan
    have htarget := (hresolve track.format track.sampleRate track.bitDepth
      server.config.formatPolicy server.config.maxRemoteBitrate).trans
      (lossy_eq_ok_iff.mpr ⟨by rw [hpolicy]; decide, rfl⟩)
    exact ⟨made, v1_command_eq_some_iff.mpr ⟨henabled, track, htrack, _,
      resolves_to_plan_iff.mpr ⟨by rw [hpolicy]; decide, htarget, hcount⟩, hpermit, hffmpeg, canonical,
      hvalid, hmade⟩⟩

theorem v1_passed (hlossy : LossyTarget format server.config.streamProfile)
    (h : transcoderCommand server disk .v1 id format = some command) :
    ∃ bps, bps ≤ 320000 ∧ passedBitrate command =
      some (max (min bps server.config.maxRemoteBitrate / 1000) 32 * 1000) := by
  obtain ⟨-, track, -, plan, hdecision, -, -, canonical, -, hcommand⟩ := v1_command_eq_some_iff.mp h
  obtain ⟨-, htarget, -⟩ := resolves_to_plan_iff.mp hdecision
  obtain ⟨name, codec, container, bps, hcodec, hhigh, hresolve⟩ := resolve_lossy hlossy
  obtain ⟨-, rfl⟩ := lossy_eq_ok_iff.mp ((hresolve ..).symm.trans htarget)
  exact ⟨bps, hhigh, passed_of_lossy hcodec rfl (by omega) hcommand⟩

theorem v1_no_rate (hother : ¬ LossyTarget format server.config.streamProfile)
    (h : transcoderCommand server disk .v1 id format = some command) :
    passedBitrate command = none := by
  obtain ⟨-, track, -, plan, hdecision, -, -, canonical, -, hcommand⟩ := v1_command_eq_some_iff.mp h
  obtain ⟨-, htarget, -⟩ := resolves_to_plan_iff.mp hdecision
  exact passed_of_no_rate (.inl (resolve_other hother htarget)) hcommand

theorem thousands_le_iff {bps cap : ℕ} :
    max (min bps cap / 1000) 32 * 1000 ≤ cap ↔ 32000 ≤ cap := by
  omega

theorem capped_some {cap : ℕ} : Capped cap (some command) ↔
    ∀ bps ∈ passedBitrate command, bps ≤ cap := by
  simp [Capped]

/-- On each route, the bitrate that is passed to ffmpeg is within the cap exactly when ffmpeg is not
run, or the cap is at least what the request needs. -/
theorem bitrate_capped_iff (server : StreamServer) (disk : MediaDisk) (route : Route) (id : Uuid)
    (format : Option String) :
    Capped server.config.maxRemoteBitrate (transcoderCommand server disk route id format) ↔
      (Runs server disk route id format →
        neededCap route format server.config.streamProfile ≤ server.config.maxRemoteBitrate) := by
  cases route with
  | v1 =>
    rw [neededCap]
    by_cases hlossy : LossyTarget format server.config.streamProfile
    · rw [if_pos hlossy, ← v1_runs_iff hlossy]
      cases hcommand : transcoderCommand server disk .v1 id format with
      | none => simp [Capped]
      | some command =>
        obtain ⟨bps, -, hpassed⟩ := v1_passed hlossy hcommand
        simp [capped_some, hpassed, thousands_le_iff]
    · rw [if_neg hlossy]
      refine ⟨fun _ _ => Nat.zero_le _, fun _ c hc bps hbps => ?_⟩
      rw [v1_no_rate hlossy hc] at hbps
      cases hbps
  | legacy =>
    constructor
    · rintro hcap ⟨henabled, hffmpeg, ⟨track, canonical, htrack, hvalid⟩, hcached⟩
      rw [neededCap]
      cases htf : format.bind TranscodeFormat.fromStr with
      | none => exact Nat.zero_le _
      | some tf =>
        obtain ⟨made, hmade⟩ := formatCommand_makes server.cachePath canonical (uuidText id) tf
        have hcommand : transcoderCommand server disk .legacy id format = some made :=
          legacyCommand_eq_some_iff.mpr ⟨henabled, hffmpeg, track, tf, canonical, htrack, htf, hvalid,
            fun hhls => hcached (htf.trans (congrArg some hhls)), hmade⟩
        rw [hcommand, capped_some, passed_of_format hmade] at hcap
        cases hrate : formatBitrate tf with
        | none => simp [hrate]
        | some bps => simpa [hrate] using hcap bps hrate
    · intro hneeded c hc bps hbps
      obtain ⟨henabled, hffmpeg, track, tf, canonical, htrack, htf, hvalid, hcached, hmade⟩ :=
        legacyCommand_eq_some_iff.mp hc
      have hruns : Runs server disk .legacy id format := ⟨henabled, hffmpeg,
        ⟨track, canonical, htrack, hvalid⟩, fun hhls => hcached (Option.some.inj (htf.symm.trans hhls))⟩
      have hle := hneeded hruns
      rw [passed_of_format hmade] at hbps
      have hrate : formatBitrate tf = some bps := hbps
      simpa [neededCap, htf, hrate] using hle

end

/-! ## Two caps that are exceeded -/

def trackName (s : String) (h : IsName (asBytes s) := by decide) : FileName := ⟨asBytes s, h⟩

theorem music_is_name : IsName (asBytes "music") := by decide

def oneTrackDisk : MediaDisk where
  entries := [(trackName "music" music_is_name, .dir [(trackName "a.flac", .file [1])])]
  cwd := []
  cwd_real := Node.real_root rfl

def cappedServer (maxRemoteBitrate : ℕ) : StreamServer where
  streamDisabled := false
  musicPaths := [asBytes "/music"]
  cachePath := asBytes "/cache"
  getTrack := fun _ => .ok (some ⟨"/music/a.flac", .flac, some 44100, some 16⟩)
  config := { formatPolicy := .standardOnly, maxRemoteBitrate }
  transcodeSemaphore := 2
  checkFfmpeg := true

/-- `/api/stream` passes 192 thousand under a cap of 96 thousand, and `/api/v1/stream` 32 thousand under
a cap of 16 thousand. -/
theorem cap_exceeded :
    ¬ Capped 96000 (transcoderCommand (cappedServer 96000) oneTrackDisk .legacy 7 (some "mp3")) ∧
      ¬ Capped 16000 (transcoderCommand (cappedServer 16000) oneTrackDisk .v1 7 (some "mp3")) := by
  have hpassed (route : Route) (cap bps : ℕ) (hover : cap < bps)
      (h : (transcoderCommand (cappedServer cap) oneTrackDisk route 7 (some "mp3")).bind
        passedBitrate = some bps) :
      ¬ Capped cap (transcoderCommand (cappedServer cap) oneTrackDisk route 7 (some "mp3")) := by
    intro hcap
    obtain ⟨command, hcommand, hbps⟩ := Option.bind_eq_some_iff.mp h
    exact absurd (hcap command hcommand bps hbps) (Nat.not_le.mpr hover)
  exact ⟨hpassed .legacy 96000 192000 (by decide) (by decide +kernel),
    hpassed .v1 16000 32000 (by decide) (by decide +kernel)⟩

end MichiServer.Streaming
