import MichiServer.Settings.Config
import MichiServer.Streaming.Serve
import MichiServer.Text.Lines

/-!
# How a track is sent

`resolve_stream_decision` says whether a track is sent as it is or through ffmpeg, and by which plan.
`transcode_stream_with_plan` makes the command line of a plan; `transcode_stream` and
`generate_hls_playlist`, which `/api/stream` uses, make theirs with no decision.
-/

namespace MichiServer.Streaming

open MichiServer.Files MichiServer.Text
open MichiServer.Settings (ResourceProfile StreamProfile AudioFormatPolicy)

def maxTranscodes : ResourceProfile → ℕ
  | .eco => 0
  | .balanced => 2
  | .performance => 4
  | .custom => 2

def isLossless (format : AudioFormat) : Bool := format = .flac || format = .wav

def profileDebug : StreamProfile → String
  | .original => "Original"
  | .losslessCompatible => "LosslessCompatible"
  | .opusMobile96 => "OpusMobile96"
  | .opusMobile160 => "OpusMobile160"
  | .mp3Compatibility192 => "Mp3Compatibility192"
  | .mp3Compatibility320 => "Mp3Compatibility320"
  | .downsample2448 => "Downsample2448"
  | .custom => "Custom"

/-! ## Plans -/

inductive TranscodeCodec where
  | opus
  | mp3
  | pcm
  | ogg
  | hls

inductive TranscodeContainer where
  | ogg
  | mp3
  | wav
  | hls

structure TranscodePlan where
  codec : TranscodeCodec
  container : TranscodeContainer
  bitrateBps : Option ℕ
  sampleRateHz : Option ℕ
  bitDepth : Option ℕ
  channels : Option ℕ

def TranscodePlan.mimeType (plan : TranscodePlan) : String :=
  match plan.container with
  | .ogg => "audio/ogg"
  | .mp3 => "audio/mpeg"
  | .wav => "audio/wav"
  | .hls => "application/vnd.apple.mpegurl"

inductive StreamMode where
  | direct
  | transcode (plan : TranscodePlan)

structure StreamDecision where
  mode : StreamMode
  sourceFormat : AudioFormat
  outputMimeType : String
  reason : String

/-! ## The decision -/

/-- What a format or a profile comes to: the track as it is, for a reason, or a plan. -/
inductive Resolution where
  | direct (reason : String)
  | transcode (plan : TranscodePlan)

section

variable (trackFormat : AudioFormat) (trackSampleRate trackBitDepth : Option ℕ)
  (formatPolicy : AudioFormatPolicy) (maxRemoteBitrate : ℕ)

def lossyPlan (codec : TranscodeCodec) (container : TranscodeContainer) (bps : ℕ) :
    TranscodePlan where
  codec := codec
  container := container
  bitrateBps := some (min bps maxRemoteBitrate)
  sampleRateHz := trackSampleRate
  bitDepth := none
  channels := some 2

def lossy (name : String) (codec : TranscodeCodec) (container : TranscodeContainer) (bps : ℕ) :
    Except String Resolution :=
  if formatPolicy = .losslessOnly then
    .error ("TRANSCODING_FORBIDDEN_BY_POLICY: LosslessOnly policy forbids " ++ name)
  else .ok (.transcode (lossyPlan trackSampleRate maxRemoteBitrate codec container bps))

/-- The DirectPlay policy lets a format be asked for that the track has. -/
def isSame (reqLower : String) : Bool :=
  match trackFormat with
  | .mp3 => reqLower = "mp3"
  | .flac => reqLower = "flac"
  | .ogg => reqLower = "ogg" || reqLower = "opus"
  | .opus => reqLower = "ogg" || reqLower = "opus"
  | .wav => reqLower = "wav"
  | .aac => reqLower = "aac" || reqLower = "m4a"
  | _ => false

def wavPlan : TranscodePlan where
  codec := .pcm
  container := .wav
  bitrateBps := none
  sampleRateHz := trackSampleRate
  bitDepth := some ((trackBitDepth.map (· % 2 ^ 8)).getD 16)
  channels := some 2

def downsamplePlan : TranscodePlan where
  codec := .pcm
  container := .wav
  bitrateBps := none
  sampleRateHz := some (min (trackSampleRate.getD 48000) 48000)
  bitDepth := some (min (trackBitDepth.getD 24) 24)
  channels := some 2

def resolveFormat (reqFmt : String) : Except String Resolution :=
  match toLowercase reqFmt with
  | "mp3" => lossy trackSampleRate formatPolicy maxRemoteBitrate
      "lossy MP3 transcoding" .mp3 .mp3 192000
  | "opus" => lossy trackSampleRate formatPolicy maxRemoteBitrate
      "lossy Opus transcoding" .opus .ogg 128000
  | "ogg" => lossy trackSampleRate formatPolicy maxRemoteBitrate
      "lossy Ogg transcoding" .ogg .ogg 160000
  | "wav" => .ok (.transcode (wavPlan trackSampleRate trackBitDepth))
  | "pcm" => .ok (.transcode (wavPlan trackSampleRate trackBitDepth))
  | "flac" =>
    if isLossless trackFormat then .ok (.direct "direct lossless play")
    else .error "UNSUPPORTED_TRANSCODE_PLAN: transcoding lossy source to FLAC is not supported"
  | _ => .error s!"INVALID_STREAM_PROFILE: requested format '{reqFmt}' is not supported"

def resolveProfile (streamProfile : StreamProfile) : Except String Resolution :=
  match streamProfile with
  | .original => .ok (.direct "profile: original")
  | .custom => .ok (.direct "profile: original")
  | .losslessCompatible =>
    if isLossless trackFormat then .ok (.direct "profile: lossless compatible direct play")
    else .ok (.direct "profile: direct play source")
  | .opusMobile96 => lossy trackSampleRate formatPolicy maxRemoteBitrate
      "OpusMobile96" .opus .ogg 96000
  | .opusMobile160 => lossy trackSampleRate formatPolicy maxRemoteBitrate
      "OpusMobile160" .opus .ogg 160000
  | .mp3Compatibility192 => lossy trackSampleRate formatPolicy maxRemoteBitrate
      "Mp3Compatibility192" .mp3 .mp3 192000
  | .mp3Compatibility320 => lossy trackSampleRate formatPolicy maxRemoteBitrate
      "Mp3Compatibility320" .mp3 .mp3 320000
  | .downsample2448 => .ok (.transcode (downsamplePlan trackSampleRate trackBitDepth))

/-- What a request comes to: its format if it names one, else the profile. -/
def resolveTarget (explicitFormat : Option String) (streamProfile : StreamProfile) :
    Except String Resolution :=
  match explicitFormat with
  | some reqFmt => resolveFormat trackFormat trackSampleRate trackBitDepth formatPolicy
      maxRemoteBitrate reqFmt
  | none => resolveProfile trackFormat trackSampleRate trackBitDepth formatPolicy
      maxRemoteBitrate streamProfile

end

def resolveStreamDecision (trackFormat : AudioFormat)
    (trackSampleRate trackBitDepth : Option ℕ) (explicitFormat : Option String)
    (streamProfile : StreamProfile) (formatPolicy : AudioFormatPolicy)
    (resourceProfile : ResourceProfile) (maxRemoteBitrate : ℕ) :
    Except String StreamDecision :=
  let direct (reason : String) : StreamDecision :=
    { mode := .direct, sourceFormat := trackFormat, outputMimeType := trackFormat.mimeType,
      reason }
  if formatPolicy = .directPlay then
    if explicitFormat.any fun reqFmt => !isSame trackFormat (toLowercase reqFmt) then
      .error "TRANSCODING_FORBIDDEN_BY_POLICY: DirectPlay format policy forbids transcoding"
    else .ok (direct "policy: DirectPlay enforced")
  else
    match resolveTarget trackFormat trackSampleRate trackBitDepth formatPolicy
        maxRemoteBitrate explicitFormat streamProfile with
    | .error e => .error e
    | .ok (.direct reason) => .ok (direct reason)
    | .ok (.transcode plan) =>
      if maxTranscodes resourceProfile = 0 then
        .error "TRANSCODING_DISABLED: current resource profile (Eco) does not allow transcoding"
      else
        let shown := profileDebug streamProfile
        .ok {
          mode := .transcode plan
          sourceFormat := trackFormat
          outputMimeType := plan.mimeType
          reason := s!"transcode to {shown} via profile {shown}" }

/-! ## Command lines -/

inductive Arg where
  | text (s : String)
  | path (p : Path)
deriving DecidableEq

/-- The options of a codec that takes a bitrate, which is given in thousands and at least 32 of them. -/
def bitrateOptions (encoder muxer : String) (bitrateBps : Option ℕ) : List Arg :=
  let rate := match bitrateBps with
    | some bps =>
      let kbps := max (bps / 1000) 32
      [.text "-b:a", .text s!"{kbps}k"]
    | none => []
  [.text "-c:a", .text encoder] ++ rate ++ [.text "-f", .text muxer]

def pcmOptions (bitDepth sampleRateHz : Option ℕ) : List Arg :=
  let rate := match sampleRateHz with
    | some sr => [.text "-ar", .text (toString sr)]
    | none => []
  [.text "-c:a", .text (if bitDepth = some 24 then "pcm_s24le" else "pcm_s16le")] ++ rate ++
    [.text "-f", .text "wav"]

def transcodeStreamWithPlan (filePath : Path) (plan : TranscodePlan) :
    Except StreamError (List Arg) :=
  let channels := match plan.channels with
    | some channels => [.text "-ac", .text (toString channels)]
    | none => []
  let command (options : List Arg) : List Arg :=
    [.text "-i", .path filePath, .text "-vn"] ++ options ++ channels ++ [.text "-"]
  match plan.codec with
  | .opus => .ok (command (bitrateOptions "libopus" "ogg" plan.bitrateBps))
  | .mp3 => .ok (command (bitrateOptions "libmp3lame" "mp3" plan.bitrateBps))
  | .pcm => .ok (command (pcmOptions plan.bitDepth plan.sampleRateHz))
  | .ogg => .ok (command (bitrateOptions "libvorbis" "ogg" plan.bitrateBps))
  | .hls => .error (.io ("HLS transcoding requires segmented output via generate_hls_playlist, " ++
      "not stdout pipe"))

def TranscodeFormat.plan : TranscodeFormat → TranscodePlan
  | .mp3 => ⟨.mp3, .mp3, some 192000, none, none, some 2⟩
  | .opus => ⟨.opus, .ogg, some 128000, none, none, some 2⟩
  | .ogg => ⟨.ogg, .ogg, none, none, none, some 2⟩
  | .pcm => ⟨.pcm, .wav, none, some 48000, some 24, some 2⟩
  | .hls => ⟨.hls, .hls, none, none, none, some 2⟩

def transcodeStream (filePath : Path) (format : TranscodeFormat) : Except StreamError (List Arg) :=
  transcodeStreamWithPlan filePath format.plan

def hlsSegmentDuration : ℕ := 10

def generateHlsPlaylist (filePath cachePath : Path) (trackId : String) : List Arg :=
  [.text "-i", .path filePath, .text "-vn", .text "-c:a", .text "aac", .text "-b:a", .text "192k",
    .text "-ar", .text "48000", .text "-ac", .text "2", .text "-f", .text "hls",
    .text "-hls_time", .text (toString hlsSegmentDuration), .text "-hls_list_size", .text "0",
    .text "-hls_segment_filename", .path (hlsSegmentPath cachePath trackId "seg_%05d.ts"),
    .path (playlistPath cachePath trackId)]

/-! ## Bitrates in command lines -/

def valueAfter (flag : String) : List Arg → Option Arg
  | a :: b :: rest => if a = .text flag then some b else valueAfter flag (b :: rest)
  | _ => none

/-- A bitrate as ffmpeg reads it: a number, in thousands where a `k` follows. -/
def readBitrate (value : List Char) : Option ℕ :=
  if value.getLast? = some 'k' then (parseUint 64 value.dropLast).map (· * 1000)
  else parseUint 64 value

def passedBitrate (command : List Arg) : Option ℕ :=
  match valueAfter "-b:a" command with
  | some (.text value) => readBitrate value.toList
  | _ => none

theorem readBitrate_thousands {kbps : ℕ} (h : kbps < 2 ^ 64) :
    readBitrate (s!"{kbps}k").toList = some (kbps * 1000) := by
  have htext : (s!"{kbps}k").toList = (toString kbps).toList ++ ['k'] := String.toList_append ..
  have hdigits : parseUint 64 (toString kbps).toList = some kbps :=
    (decimal_toString kbps).parseUint h
  rw [htext, readBitrate, if_pos List.getLast?_concat, List.dropLast_concat, hdigits, Option.map_some]

/-! ## What is decided and what is asked for -/

section

variable {trackFormat : AudioFormat} {trackSampleRate trackBitDepth : Option ℕ}
  {explicitFormat : Option String} {streamProfile : StreamProfile}
  {formatPolicy : AudioFormatPolicy} {resourceProfile : ResourceProfile}
  {maxRemoteBitrate : ℕ} {plan : TranscodePlan}

theorem resolves_to_plan_iff :
    (∃ decision, resolveStreamDecision trackFormat trackSampleRate trackBitDepth
        explicitFormat streamProfile formatPolicy resourceProfile maxRemoteBitrate =
          .ok decision ∧ decision.mode = .transcode plan) ↔
      formatPolicy ≠ .directPlay ∧
        resolveTarget trackFormat trackSampleRate trackBitDepth formatPolicy
          maxRemoteBitrate explicitFormat streamProfile = .ok (.transcode plan) ∧
        maxTranscodes resourceProfile ≠ 0 := by
  constructor
  · grind [resolveStreamDecision]
  · rintro ⟨hpolicy, htarget, hcount⟩
    simp [resolveStreamDecision, if_neg hpolicy, htarget, if_neg hcount]

def LossyTarget (explicitFormat : Option String) (streamProfile : StreamProfile) : Prop :=
  match explicitFormat with
  | some reqFmt => toLowercase reqFmt ∈ ["mp3", "opus", "ogg"]
  | none => streamProfile ∈ [StreamProfile.opusMobile96, .opusMobile160, .mp3Compatibility192,
      .mp3Compatibility320]

instance : Decidable (LossyTarget explicitFormat streamProfile) := by
  unfold LossyTarget
  cases explicitFormat <;> exact inferInstance

def TranscodeCodec.Lossy (codec : TranscodeCodec) : Prop :=
  codec = .opus ∨ codec = .mp3 ∨ codec = .ogg

/-- A lossy target is resolved to its bitrate. -/
theorem resolve_lossy (h : LossyTarget explicitFormat streamProfile) :
    ∃ name codec container bps, TranscodeCodec.Lossy codec ∧ bps ≤ 320000 ∧
      ∀ trackFormat sr depth policy cap,
        resolveTarget trackFormat sr depth policy cap explicitFormat streamProfile =
          lossy sr policy cap name codec container bps := by
  cases explicitFormat with
  | some reqFmt =>
    simp only [LossyTarget, List.mem_cons, List.not_mem_nil, or_false] at h
    obtain h | h | h := h
    · exact ⟨_, _, _, 192000, .inr (.inl rfl), by decide,
        fun _ _ _ _ _ => by simp only [resolveTarget, resolveFormat, h]; rfl⟩
    · exact ⟨_, _, _, 128000, .inl rfl, by decide,
        fun _ _ _ _ _ => by simp only [resolveTarget, resolveFormat, h]; rfl⟩
    · exact ⟨_, _, _, 160000, .inr (.inr rfl), by decide,
        fun _ _ _ _ _ => by simp only [resolveTarget, resolveFormat, h]; rfl⟩
  | none =>
    simp only [LossyTarget, List.mem_cons, List.not_mem_nil, or_false] at h
    obtain rfl | rfl | rfl | rfl := h
    · exact ⟨_, _, _, 96000, .inl rfl, by decide, fun _ _ _ _ _ => rfl⟩
    · exact ⟨_, _, _, 160000, .inl rfl, by decide, fun _ _ _ _ _ => rfl⟩
    · exact ⟨_, _, _, 192000, .inr (.inl rfl), by decide, fun _ _ _ _ _ => rfl⟩
    · exact ⟨_, _, _, 320000, .inr (.inl rfl), by decide, fun _ _ _ _ _ => rfl⟩

/-- Any other is resolved to one without loss. -/
theorem resolve_other (hother : ¬ LossyTarget explicitFormat streamProfile)
    (h : resolveTarget trackFormat trackSampleRate trackBitDepth formatPolicy
      maxRemoteBitrate explicitFormat streamProfile = .ok (.transcode plan)) :
    plan.codec = .pcm := by
  cases explicitFormat with
  | some reqFmt =>
    simp only [LossyTarget, List.mem_cons, List.not_mem_nil, or_false, not_or] at hother
    rw [resolveTarget, resolveFormat] at h
    split at h
    · exact absurd ‹_› hother.1
    · exact absurd ‹_› hother.2.1
    · exact absurd ‹_› hother.2.2
    · cases h
      rfl
    · cases h
      rfl
    · split at h <;> cases h
    · cases h
  | none =>
    simp only [LossyTarget, List.mem_cons, List.not_mem_nil, or_false, not_or] at hother
    cases streamProfile with
    | downsample2448 =>
      cases h
      rfl
    | original => cases h
    | custom => cases h
    | losslessCompatible =>
      simp only [resolveTarget, resolveProfile] at h
      split at h <;> cases h
    | opusMobile96 => exact absurd rfl hother.1
    | opusMobile160 => exact absurd rfl hother.2.1
    | mp3Compatibility192 => exact absurd rfl hother.2.2.1
    | mp3Compatibility320 => exact absurd rfl hother.2.2.2

end

/-! ## What a command line passes -/

section

variable {filePath : Path} {plan : TranscodePlan} {command : List Arg}

theorem passed_of_lossy {bps : ℕ} (hcodec : plan.codec.Lossy) (hrate : plan.bitrateBps = some bps)
    (hlt : bps < 2 ^ 64) (h : transcodeStreamWithPlan filePath plan = .ok command) :
    passedBitrate command = some (max (bps / 1000) 32 * 1000) := by
  have hvalue : valueAfter "-b:a" command = some (.text s!"{max (bps / 1000) 32}k") := by
    obtain hc | hc | hc := hcodec <;>
    · simp only [transcodeStreamWithPlan, hc, hrate, bitrateOptions] at h
      cases h
      rfl
  rw [passedBitrate, hvalue]
  exact readBitrate_thousands (by omega)

theorem valueAfter_absent {flag : String} (h : Arg.text flag ∉ command) :
    valueAfter flag command = none := by
  fun_induction valueAfter flag command with
  | case1 b rest => exact absurd (List.mem_cons_self ..) h
  | case2 a b rest hne ih => exact ih (List.not_mem_of_not_mem_cons h)
  | case3 => rfl

theorem flag_ne_number {flag : String} {n : ℕ} (h : '-' ∈ flag.toList) : flag ≠ n.repr := by
  rintro rfl
  have hdigit := isDigit_of_mem_toString (n := n) h
  exact absurd hdigit (by decide)

theorem passed_of_no_rate (hplan : plan.codec = .pcm ∨ plan.bitrateBps = none)
    (h : transcodeStreamWithPlan filePath plan = .ok command) : passedBitrate command = none := by
  have hnumber : ∀ n : ℕ, "-b:a" ≠ n.repr := fun n => flag_ne_number (by decide)
  have hpcm : ∀ depth sr, Arg.text "-b:a" ∉ pcmOptions depth sr := by
    intro depth sr
    cases sr <;> by_cases hdepth : depth = some 24 <;> simp [pcmOptions, hdepth, hnumber]
  have habsent : Arg.text "-b:a" ∉ command := by
    obtain ⟨codec, container, rate, sr, depth, channels⟩ := plan
    cases channels <;> cases codec <;> cases h <;> simp [hpcm, hnumber] <;>
      simp_all [bitrateOptions]
  rw [passedBitrate, valueAfter_absent habsent]

end

end MichiServer.Streaming
