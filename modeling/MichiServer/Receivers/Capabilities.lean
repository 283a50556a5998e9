import MichiServer.Logic.Json

/-!
# What a receiver can play

The registry knows of each receiver the transports, codecs, rates, depths and channels it supports
(`AudioProfile`). They are taken from the receiver's own document with `update_entry_capabilities`, and
kept in the database as a document of `ReceiverCapabilities`. `ReceiverCapabilities.from_toJson` is the
round trip; a list of names, or the empty object, is no such document.
-/

namespace MichiServer.Receivers

open MichiServer.Logic

structure AudioProfile where
  supportedTransports : List String := []
  supportedCodecs : List String := []
  supportedSampleRates : List UInt32 := []
  supportedBitDepths : List UInt32 := []
  supportedChannels : List UInt8 := []
  maxSampleRate : UInt32 := 0
  maxBitDepth : UInt32 := 0

/-- The further fields of a registry entry that are about what a receiver can do. -/
structure ReceiverProfile extends AudioProfile where
  deviceType : String := "standard"
  capabilities : List String := []
  authoritySupported : Bool := false

structure ReceiverCapabilities extends AudioProfile where
  deviceType : String
  features : List String := []
  authorityFeatures : List String := []

namespace ReceiverCapabilities

def toJson (caps : ReceiverCapabilities) : Json :=
  .object [
    ("device_type", .string caps.deviceType),
    ("supported_codecs", .array (caps.supportedCodecs.map .string)),
    ("max_sample_rate", .number caps.maxSampleRate.toNat),
    ("max_bit_depth", .number caps.maxBitDepth.toNat),
    ("supported_transports", .array (caps.supportedTransports.map .string)),
    ("supported_sample_rates", .array (caps.supportedSampleRates.map fun n => .number n.toNat)),
    ("supported_bit_depths", .array (caps.supportedBitDepths.map fun n => .number n.toNat)),
    ("supported_channels", .array (caps.supportedChannels.map fun n => .number n.toNat)),
    ("features", .array (caps.features.map .string)),
    ("authority_features", .array (caps.authorityFeatures.map .string))]

def fromJson (j : Json) : Option ReceiverCapabilities :=
  if j.fits 10 then do
    let deviceType ← j.required 0 "device_type" Json.asStr
    let supportedCodecs ← j.required 1 "supported_codecs" (Json.list Json.asStr)
    let maxSampleRate ← j.required 2 "max_sample_rate" Json.u32
    let maxBitDepth ← j.required 3 "max_bit_depth" Json.u32
    let supportedTransports ← j.defaulted 4 "supported_transports" (Json.list Json.asStr) []
    let supportedSampleRates ← j.defaulted 5 "supported_sample_rates" (Json.list Json.u32) []
    let supportedBitDepths ← j.defaulted 6 "supported_bit_depths" (Json.list Json.u32) []
    let supportedChannels ← j.defaulted 7 "supported_channels" (Json.list Json.u8) []
    let features ← j.defaulted 8 "features" (Json.list Json.asStr) []
    let authorityFeatures ← j.defaulted 9 "authority_features" (Json.list Json.asStr) []
    pure {
      deviceType, supportedCodecs, maxSampleRate, maxBitDepth, supportedTransports,
      supportedSampleRates, supportedBitDepths, supportedChannels, features,
      authorityFeatures }
  else none

/-- Capabilities that are written are read back. -/
theorem from_toJson (caps : ReceiverCapabilities) : fromJson caps.toJson = some caps := by
  have htexts : ∀ texts : List String, Json.list Json.asStr (.array (texts.map .string)) = some texts :=
    Json.list_written Json.asStr_string
  have hwords : ∀ words : List UInt32,
      Json.list Json.u32 (.array (words.map fun n => .number n.toNat)) = some words :=
    Json.list_written Json.u32_toNat
  have hbytes : ∀ bytes : List UInt8,
      Json.list Json.u8 (.array (bytes.map fun n => .number n.toNat)) = some bytes :=
    Json.list_written Json.u8_toNat
  -- each field is found under its name
  have h₀ : caps.toJson.required 0 "device_type" Json.asStr = some caps.deviceType := rfl
  have h₁ : caps.toJson.required 1 "supported_codecs" (Json.list Json.asStr) =
      some caps.supportedCodecs := htexts caps.supportedCodecs
  have hrate : caps.toJson.field 2 "max_sample_rate" =
      some (some (.number caps.maxSampleRate.toNat)) := rfl
  have h₂ : caps.toJson.required 2 "max_sample_rate" Json.u32 = some caps.maxSampleRate := by
    grind [Json.required, Json.u32_toNat]
  have hdepth : caps.toJson.field 3 "max_bit_depth" =
      some (some (.number caps.maxBitDepth.toNat)) := rfl
  have h₃ : caps.toJson.required 3 "max_bit_depth" Json.u32 = some caps.maxBitDepth := by
    grind [Json.required, Json.u32_toNat]
  have h₄ : caps.toJson.defaulted 4 "supported_transports" (Json.list Json.asStr) [] =
      some caps.supportedTransports := htexts caps.supportedTransports
  have h₅ : caps.toJson.defaulted 5 "supported_sample_rates" (Json.list Json.u32) [] =
      some caps.supportedSampleRates := hwords caps.supportedSampleRates
  have h₆ : caps.toJson.defaulted 6 "supported_bit_depths" (Json.list Json.u32) [] =
      some caps.supportedBitDepths := hwords caps.supportedBitDepths
  have h₇ : caps.toJson.defaulted 7 "supported_channels" (Json.list Json.u8) [] =
      some caps.supportedChannels := hbytes caps.supportedChannels
  have h₈ : caps.toJson.defaulted 8 "features" (Json.list Json.asStr) [] = some caps.features :=
    htexts caps.features
  have h₉ : caps.toJson.defaulted 9 "authority_features" (Json.list Json.asStr) [] =
      some caps.authorityFeatures := htexts caps.authorityFeatures
  have hfits : caps.toJson.fits 10 = true := rfl
  rw [fromJson, if_pos hfits, h₀, h₁, h₂, h₃, h₄, h₅, h₆, h₇, h₈, h₉]
  rfl

theorem fromJson_names (names : List String) : fromJson (.array (names.map .string)) = none := by
  have hcodecs : Json.required 1 "supported_codecs" (Json.list Json.asStr)
      (.array (names.map .string)) = none := by
    rw [Json.required, Json.field, Option.bind_some, List.getElem?_map]
    cases names[1]? <;> rfl
  unfold fromJson
  split
  · rw [hcodecs]
    cases Json.required 0 "device_type" Json.asStr (.array (names.map .string)) <;> rfl
  · rfl

end ReceiverCapabilities

namespace ReceiverProfile

def toCapabilities (p : ReceiverProfile) : ReceiverCapabilities where
  toAudioProfile := p.toAudioProfile
  deviceType := p.deviceType
  features := p.capabilities
  authorityFeatures := if p.authoritySupported then ["authority-v1"] else []

end ReceiverProfile

structure CapabilityInfo where
  deviceType : Option String := none
  audio : Option Json := none
  supportedCodecs : Option (List String) := none
  features : Option Json := none

def audioList (audio : Json) (name : String) : Option (List Json) :=
  (audio.get name).bind Json.asArray

def words (elements : List Json) : List UInt32 :=
  elements.filterMap fun x => x.asU64.map UInt32.ofNat

namespace ReceiverProfile

/-- The lists of the audio document that are there; an empty one of rates or depths does not count. -/
def readAudio (audio : Json) (p : ReceiverProfile) : ReceiverProfile :=
  let rates := ((audioList audio "sample_rates").map words).filter (¬ ·.isEmpty)
  let depths := ((audioList audio "bit_depths").map words).filter (¬ ·.isEmpty)
  { p with
    supportedTransports :=
      ((audioList audio "transports").map (List.filterMap Json.asStr)).getD p.supportedTransports
    maxSampleRate := (rates.map fun rates => rates.max?.getD 48000).getD p.maxSampleRate
    supportedSampleRates := rates.getD p.supportedSampleRates
    maxBitDepth := (depths.map fun depths => depths.max?.getD 16).getD p.maxBitDepth
    supportedBitDepths := depths.getD p.supportedBitDepths
    supportedChannels :=
      ((audioList audio "channels").map (List.filterMap fun x => x.asU64.map UInt8.ofNat)).getD
        p.supportedChannels
    supportedCodecs :=
      ((audioList audio "codecs").map (List.filterMap Json.asStr)).getD p.supportedCodecs }

def fillIn (p : ReceiverProfile) : ReceiverProfile :=
  { p with
    maxSampleRate := if p.maxSampleRate = 0 then 48000 else p.maxSampleRate
    supportedSampleRates :=
      if p.maxSampleRate = 0 then [44100, 48000] else p.supportedSampleRates
    maxBitDepth := if p.maxBitDepth = 0 then 16 else p.maxBitDepth
    supportedBitDepths := if p.maxBitDepth = 0 then [16] else p.supportedBitDepths
    supportedChannels := if p.supportedChannels.isEmpty then [2] else p.supportedChannels
    supportedCodecs := if p.supportedCodecs.isEmpty then ["pcm_s16le"] else p.supportedCodecs
    supportedTransports :=
      if p.supportedTransports.isEmpty then ["rtp_udp"] else p.supportedTransports }

def updateEntryCapabilities (info : CapabilityInfo) (p : ReceiverProfile) : ReceiverProfile :=
  let read :=
    match info.audio with
    | some audio => p.readAudio audio
    | none => { p with supportedCodecs := info.supportedCodecs.getD p.supportedCodecs }
  { read.fillIn with
    authoritySupported :=
      match info.features with
      | some features =>
        (((features.get "authority_v1").or (features.get "perch_v1")).bind Json.asBool).getD false
      | none => p.authoritySupported }

theorem updateEntryCapabilities_ne_blank (info : CapabilityInfo) (p : ReceiverProfile) :
    (p.updateEntryCapabilities info).toAudioProfile ≠ {} := by
  have hfill : ∀ p : ReceiverProfile, p.fillIn.supportedTransports ≠ [] := by
    grind [fillIn]
  intro hblank
  exact hfill _ (congrArg AudioProfile.supportedTransports hblank)

end ReceiverProfile

end MichiServer.Receivers
