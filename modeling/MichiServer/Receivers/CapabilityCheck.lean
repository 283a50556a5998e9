import Mathlib
import MichiServer.Receivers.Capabilities

/-!
# Which capabilities are accepted

Before a receiver is paired its audio document is checked: it must list the transport, rate, depth,
channel count and codec that the server needs. A session then asks for a number of channels, which must
be among those of the registry entry, as `update_entry_capabilities` took them from the document.

The numbers of the document are read as 64 bits and narrowed to the types of the entry, and so is the
number of channels that is asked for. `capabilities_exact_iff` says for which documents and requests
that makes no difference.
-/

namespace MichiServer.Receivers

open MichiServer.Logic

/-! ## The checks -/

/-- A list that has to be there, with something in it, and to hold a value. -/
def requireListed {α : Type} [DecidableEq α] (audio : Json) (name : String) (read : List Json → List α)
    (value : α) (unsupported : String) : Except String Unit :=
  match ((audioList audio name).map read).filter (¬ ·.isEmpty) with
  | none => .error s!"CONTRACT_VIOLATION: receiver capabilities missing valid audio.{name}"
  | some list =>
    if value ∈ list then .ok ()
    else .error s!"CONTRACT_VIOLATION: receiver audio does not support required {unsupported}"

def texts (elements : List Json) : List String := elements.filterMap Json.asStr

def bytes (elements : List Json) : List UInt8 :=
  elements.filterMap fun x => x.asU64.map UInt8.ofNat

def requireTransports (audio : Json) : Except String Unit :=
  requireListed audio "transports" texts "rtp_udp" "'rtp_udp' transport"

def requireSampleRates (audio : Json) : Except String Unit :=
  requireListed audio "sample_rates" words 48000 "48000 Hz sample rate"

def requireBitDepths (audio : Json) : Except String Unit :=
  requireListed audio "bit_depths" words 16 "16-bit depth"

def requireChannels (audio : Json) : Except String Unit :=
  requireListed audio "channels" bytes 2 "2 channels (stereo)"

def requireCodecs (audio : Json) : Except String Unit :=
  requireListed audio "codecs" texts "pcm_s16le" "'pcm_s16le' codec"

def validateAudioCapabilities (info : CapabilityInfo) : Except String Unit :=
  match info.audio with
  | none => .error "CONTRACT_VIOLATION: receiver missing canonical 'audio' specification"
  | some audio => do
    requireTransports audio
    requireSampleRates audio
    requireBitDepths audio
    requireChannels audio
    requireCodecs audio

def checkChannels (entry : AudioProfile) (channels : UInt32) : Except String Unit :=
  if ¬ entry.supportedChannels.isEmpty ∧ channels.toUInt8 ∉ entry.supportedChannels then
    let supported := entry.supportedChannels
    .error s!"requested channel count {channels} is not in receiver supported channels {supported}"
  else .ok ()

/-! ## What a document lists -/

def CapabilityInfo.elements (info : CapabilityInfo) (name : String) : List Json :=
  (info.audio.bind fun audio => audioList audio name).getD []

def CapabilityInfo.numbers (info : CapabilityInfo) (name : String) : List ℕ :=
  (info.elements name).filterMap Json.asU64

def CapabilityInfo.listed (info : CapabilityInfo) (name : String) : List String :=
  texts (info.elements name)

/-- The document lists what the server requires, and the channels that are asked for. -/
structure CapabilityInfo.Meets (info : CapabilityInfo) (channels : UInt32) : Prop where
  transports : "rtp_udp" ∈ info.listed "transports"
  sample_rates : 48000 ∈ info.numbers "sample_rates"
  bit_depths : 16 ∈ info.numbers "bit_depths"
  stereo : 2 ∈ info.numbers "channels"
  codecs : "pcm_s16le" ∈ info.listed "codecs"
  channels : channels.toNat ∈ info.numbers "channels"

/-- A receiver with this document is accepted for so many channels: the document is valid, and an
entry that was updated from it passes the check. -/
def Accepted (info : CapabilityInfo) (p : ReceiverProfile) (channels : UInt32) : Prop :=
  validateAudioCapabilities info = .ok () ∧
    checkChannels (p.updateEntryCapabilities info).toAudioProfile channels = .ok ()

/-- The entry holds the values of the document, list by list where there are any. -/
structure StoredAs (info : CapabilityInfo) (entry : AudioProfile) : Prop where
  transports : info.listed "transports" ≠ [] → entry.supportedTransports = info.listed "transports"
  sample_rates : info.numbers "sample_rates" ≠ [] →
    entry.supportedSampleRates.map UInt32.toNat = info.numbers "sample_rates"
  bit_depths : info.numbers "bit_depths" ≠ [] →
    entry.supportedBitDepths.map UInt32.toNat = info.numbers "bit_depths"
  channels : info.numbers "channels" ≠ [] →
    entry.supportedChannels.map UInt8.toNat = info.numbers "channels"
  codecs : info.listed "codecs" ≠ [] → entry.supportedCodecs = info.listed "codecs"

/-! ## Narrowed lists -/

section

variable (elements : List Json)

theorem words_eq : words elements = (elements.filterMap Json.asU64).map UInt32.ofNat := by
  rw [words, List.map_filterMap]

theorem bytes_eq : bytes elements = (elements.filterMap Json.asU64).map UInt8.ofNat := by
  rw [bytes, List.map_filterMap]

end

variable {numbers : List ℕ}

theorem map_words_eq_iff :
    (numbers.map UInt32.ofNat).map UInt32.toNat = numbers ↔ ∀ n ∈ numbers, n < 2 ^ 32 := by
  have hkept := List.map_inj_left (f := fun n => (UInt32.ofNat n).toNat) (g := id) (l := numbers)
  rw [List.map_id] at hkept
  rw [List.map_map, Function.comp_def, hkept]
  simp

theorem map_bytes_eq_iff :
    (numbers.map UInt8.ofNat).map UInt8.toNat = numbers ↔ ∀ n ∈ numbers, n < 2 ^ 8 := by
  have hkept := List.map_inj_left (f := fun n => (UInt8.ofNat n).toNat) (g := id) (l := numbers)
  rw [List.map_id] at hkept
  rw [List.map_map, Function.comp_def, hkept]
  simp

theorem mem_words_iff (h : ∀ n ∈ numbers, n < 2 ^ 32) (w : UInt32) :
    w ∈ numbers.map UInt32.ofNat ↔ w.toNat ∈ numbers := by
  constructor
  · intro hw
    rw [← map_words_eq_iff.mpr h]
    exact List.mem_map_of_mem hw
  · intro hn
    exact List.mem_map.mpr ⟨w.toNat, hn, UInt32.ofNat_toNat⟩

theorem mem_bytes_iff (h : ∀ n ∈ numbers, n < 2 ^ 8) (b : UInt8) :
    b ∈ numbers.map UInt8.ofNat ↔ b.toNat ∈ numbers := by
  constructor
  · intro hb
    rw [← map_bytes_eq_iff.mpr h]
    exact List.mem_map_of_mem hb
  · intro hn
    exact List.mem_map.mpr ⟨b.toNat, hn, UInt8.ofNat_toNat⟩

/-! ## What is accepted -/

theorem requireListed_ok_iff {α : Type} [DecidableEq α] {audio : Json} {name : String}
    (read : List Json → List α) (hread : read [] = []) {value : α} {unsupported : String} :
    requireListed audio name read value unsupported = .ok () ↔
      value ∈ read ((audioList audio name).getD []) := by
  rw [requireListed]
  cases audioList audio name with
  | none => simp [hread]
  | some elements =>
    grind

theorem then_ok_iff {first second : Except String Unit} :
    (first >>= fun _ => second) = .ok () ↔ first = .ok () ∧ second = .ok () := by
  cases first <;> simp [bind, Except.bind]

theorem validate_ok_iff {info : CapabilityInfo} : validateAudioCapabilities info = .ok () ↔
    "rtp_udp" ∈ info.listed "transports" ∧
    48000 ∈ (info.numbers "sample_rates").map UInt32.ofNat ∧
    16 ∈ (info.numbers "bit_depths").map UInt32.ofNat ∧
    2 ∈ (info.numbers "channels").map UInt8.ofNat ∧
    "pcm_s16le" ∈ info.listed "codecs" := by
  simp only [CapabilityInfo.listed, CapabilityInfo.numbers, ← words_eq, ← bytes_eq]
  cases haudio : info.audio with
  | none => simp [validateAudioCapabilities, CapabilityInfo.elements, haudio, texts, words, bytes]
  | some audio =>
    simp only [validateAudioCapabilities, haudio, then_ok_iff,
      CapabilityInfo.elements, Option.bind_some, requireTransports, requireSampleRates,
      requireBitDepths, requireChannels, requireCodecs,
      requireListed_ok_iff texts rfl, requireListed_ok_iff words rfl,
      requireListed_ok_iff bytes rfl]

/-! ## What is stored -/

theorem max_word (a b : UInt32) : max a b = if a ≤ b then b else a := rfl

instance lawful_max : Std.LawfulOrderMax UInt32 := by
  refine .of_max_le_iff (fun a b c => ?_) fun a b => ?_
  · grind [max_word]
  · grind [max_word]

/-- The numbers are stored as they are exactly where they fit into words and are not all zero. -/
theorem stored_words_iff (hne : numbers ≠ []) (top : UInt32) {blank : List UInt32}
    (hblank : ∃ w ∈ blank, w ≠ 0) :
    (if (numbers.map UInt32.ofNat).max?.getD top = 0 then blank else numbers.map UInt32.ofNat).map
        UInt32.toNat = numbers ↔
      (∀ n ∈ numbers, n < 2 ^ 32) ∧ ∃ n ∈ numbers, n ≠ 0 := by
  have hne' : numbers.map UInt32.ofNat ≠ [] := by simpa using hne
  obtain ⟨greatest, hgreatest⟩ := Option.isSome_iff_exists.mp (List.isSome_max?_of_ne_nil hne')
  obtain ⟨hmem, hle⟩ := List.max?_eq_some_iff.mp hgreatest
  rw [hgreatest, Option.getD_some]
  split
  · rename_i hzero
    have hall : ∀ w ∈ numbers.map UInt32.ofNat, w = 0 := by
      grind
    refine iff_of_false (fun hstored => ?_) ?_
    · obtain ⟨w, hw, hnonzero⟩ := hblank
      refine hnonzero (hall w ?_)
      rw [← hstored, List.map_map]
      exact List.mem_map.mpr ⟨w, hw, UInt32.ofNat_toNat⟩
    · rintro ⟨hfits, n, hn, hnonzero⟩
      have hword := hall _ (List.mem_map_of_mem hn)
      have hvalue := congrArg UInt32.toNat hword
      rw [UInt32.toNat_ofNat', Nat.mod_eq_of_lt (hfits n hn)] at hvalue
      exact hnonzero hvalue
  · rename_i hnonzero
    rw [map_words_eq_iff]
    refine (and_iff_left_of_imp fun _ => ?_).symm
    obtain ⟨n, hn, rfl⟩ := List.mem_map.mp hmem
    exact ⟨n, hn, fun hzero => hnonzero (by rw [hzero]; rfl)⟩

section

variable {info : CapabilityInfo} (p : ReceiverProfile)

theorem exists_audio (name : String) (h : info.elements name ≠ []) :
    ∃ audio, info.audio = some audio ∧ audioList audio name = some (info.elements name) := by
  simp only [CapabilityInfo.elements] at h ⊢
  cases haudio : info.audio with
  | none => simp [haudio] at h
  | some audio =>
    rw [haudio, Option.bind_some] at h
    cases hlist : audioList audio name with
    | none => simp [hlist] at h
    | some elements => exact ⟨audio, rfl, by simp [hlist]⟩

theorem stored_transports (h : info.listed "transports" ≠ []) :
    (p.updateEntryCapabilities info).supportedTransports = info.listed "transports" := by
  obtain ⟨audio, haudio, hlist⟩ := exists_audio "transports"
    (fun hnil => h (by rw [CapabilityInfo.listed, hnil]; rfl))
  simp only [ReceiverProfile.updateEntryCapabilities, haudio, ReceiverProfile.fillIn,
    ReceiverProfile.readAudio, hlist, Option.map_some, Option.getD_some]
  rw [if_neg (by simpa [CapabilityInfo.listed, texts] using h)]
  rfl

theorem stored_codecs (h : info.listed "codecs" ≠ []) :
    (p.updateEntryCapabilities info).supportedCodecs = info.listed "codecs" := by
  obtain ⟨audio, haudio, hlist⟩ := exists_audio "codecs"
    (fun hnil => h (by rw [CapabilityInfo.listed, hnil]; rfl))
  simp only [ReceiverProfile.updateEntryCapabilities, haudio, ReceiverProfile.fillIn,
    ReceiverProfile.readAudio, hlist, Option.map_some, Option.getD_some]
  rw [if_neg (by simpa [CapabilityInfo.listed, texts] using h)]
  rfl

theorem stored_channels (h : info.numbers "channels" ≠ []) :
    (p.updateEntryCapabilities info).supportedChannels =
      (info.numbers "channels").map UInt8.ofNat := by
  obtain ⟨audio, haudio, hlist⟩ := exists_audio "channels"
    (fun hnil => h (by rw [CapabilityInfo.numbers, hnil]; rfl))
  have hbytes := bytes_eq (info.elements "channels")
  simp only [ReceiverProfile.updateEntryCapabilities, haudio, ReceiverProfile.fillIn,
    ReceiverProfile.readAudio, hlist, Option.map_some, Option.getD_some]
  rw [← bytes, hbytes, if_neg (by simpa [CapabilityInfo.numbers] using h)]
  rfl

theorem stored_sample_rates (h : info.numbers "sample_rates" ≠ []) :
    let rates := (info.numbers "sample_rates").map UInt32.ofNat
    (p.updateEntryCapabilities info).supportedSampleRates =
      if rates.max?.getD 48000 = 0 then [44100, 48000] else rates := by
  obtain ⟨audio, haudio, hlist⟩ := exists_audio "sample_rates"
    (fun hnil => h (by rw [CapabilityInfo.numbers, hnil]; rfl))
  have hwords := words_eq (info.elements "sample_rates")
  have hne : ((info.numbers "sample_rates").map UInt32.ofNat).isEmpty = false := by simpa using h
  grind [ReceiverProfile.updateEntryCapabilities, ReceiverProfile.fillIn, ReceiverProfile.readAudio,
    CapabilityInfo.numbers]

theorem stored_bit_depths (h : info.numbers "bit_depths" ≠ []) :
    let depths := (info.numbers "bit_depths").map UInt32.ofNat
    (p.updateEntryCapabilities info).supportedBitDepths =
      if depths.max?.getD 16 = 0 then [16] else depths := by
  obtain ⟨audio, haudio, hlist⟩ := exists_audio "bit_depths"
    (fun hnil => h (by rw [CapabilityInfo.numbers, hnil]; rfl))
  have hwords := words_eq (info.elements "bit_depths")
  have hne : ((info.numbers "bit_depths").map UInt32.ofNat).isEmpty = false := by simpa using h
  grind [ReceiverProfile.updateEntryCapabilities, ReceiverProfile.fillIn, ReceiverProfile.readAudio,
    CapabilityInfo.numbers]

end

/-! ## Exactness -/

/-- The numbers of the document fit the types of the entry, with a rate and a depth that are not zero
if any is listed. -/
structure CapabilityInfo.Fits (info : CapabilityInfo) : Prop where
  sample_rates : ∀ n ∈ info.numbers "sample_rates", n < 2 ^ 32
  bit_depths : ∀ n ∈ info.numbers "bit_depths", n < 2 ^ 32
  channels : ∀ n ∈ info.numbers "channels", n < 2 ^ 8
  some_rate : info.numbers "sample_rates" ≠ [] → ∃ n ∈ info.numbers "sample_rates", n ≠ 0
  some_depth : info.numbers "bit_depths" ≠ [] → ∃ n ∈ info.numbers "bit_depths", n ≠ 0

section

variable {info : CapabilityInfo} {p : ReceiverProfile} {channels : UInt32}

/-- What is stored says what the receiver said exactly where its numbers fit. -/
theorem storedAs_iff : StoredAs info (p.updateEntryCapabilities info).toAudioProfile ↔ info.Fits := by
  have hrates : info.numbers "sample_rates" ≠ [] →
      ((p.updateEntryCapabilities info).supportedSampleRates.map UInt32.toNat =
          info.numbers "sample_rates" ↔
        (∀ n ∈ info.numbers "sample_rates", n < 2 ^ 32) ∧ ∃ n ∈ info.numbers "sample_rates", n ≠ 0) := by
    intro hne
    rw [stored_sample_rates p hne]
    exact stored_words_iff hne 48000 ⟨44100, by simp, by decide⟩
  have hdepths : info.numbers "bit_depths" ≠ [] →
      ((p.updateEntryCapabilities info).supportedBitDepths.map UInt32.toNat =
          info.numbers "bit_depths" ↔
        (∀ n ∈ info.numbers "bit_depths", n < 2 ^ 32) ∧ ∃ n ∈ info.numbers "bit_depths", n ≠ 0) := by
    intro hne
    rw [stored_bit_depths p hne]
    exact stored_words_iff hne 16 ⟨16, by simp, by decide⟩
  have hchannels : info.numbers "channels" ≠ [] →
      ((p.updateEntryCapabilities info).supportedChannels.map UInt8.toNat =
        info.numbers "channels" ↔ ∀ n ∈ info.numbers "channels", n < 2 ^ 8) := by
    intro hne
    rw [stored_channels p hne, map_bytes_eq_iff]
  constructor
  · intro h
    refine ⟨?_, ?_, ?_, fun hne => ((hrates hne).mp (h.sample_rates hne)).2,
      fun hne => ((hdepths hne).mp (h.bit_depths hne)).2⟩
    · intro n hn
      have hne := List.ne_nil_of_mem hn
      exact ((hrates hne).mp (h.sample_rates hne)).1 n hn
    · intro n hn
      have hne := List.ne_nil_of_mem hn
      exact ((hdepths hne).mp (h.bit_depths hne)).1 n hn
    · intro n hn
      have hne := List.ne_nil_of_mem hn
      exact (hchannels hne).mp (h.channels hne) n hn
  · intro h
    exact {
      transports := stored_transports p
      sample_rates := fun hne => (hrates hne).mpr ⟨h.sample_rates, h.some_rate hne⟩
      bit_depths := fun hne => (hdepths hne).mpr ⟨h.bit_depths, h.some_depth hne⟩
      channels := fun hne => (hchannels hne).mpr h.channels
      codecs := stored_codecs p }

/-- Of what fits, a session is accepted exactly where the receiver meets it. -/
theorem accepted_iff (h : info.Fits) :
    Accepted info p channels ↔ info.Meets channels.toUInt8.toUInt32 := by
  have hrate := mem_words_iff h.sample_rates 48000
  have hdepth := mem_words_iff h.bit_depths 16
  have hstereo := mem_bytes_iff h.channels 2
  have hasked := mem_bytes_iff h.channels channels.toUInt8
  rw [Accepted, validate_ok_iff, hrate, hdepth, hstereo]
  constructor
  · rintro ⟨⟨htransports, hrates, hdepths, hchannels, hcodecs⟩, hcheck⟩
    have hne := List.ne_nil_of_mem hchannels
    rw [checkChannels, stored_channels p hne] at hcheck
    split at hcheck
    · cases hcheck
    · rename_i hlisted
      have hmem : channels.toUInt8 ∈ (info.numbers "channels").map UInt8.ofNat := by
        grind
      exact ⟨htransports, hrates, hdepths, hchannels, hcodecs, by simpa using hasked.mp hmem⟩
  · intro hmeets
    have hne := List.ne_nil_of_mem hmeets.stereo
    refine ⟨⟨hmeets.transports, hmeets.sample_rates, hmeets.bit_depths, hmeets.stereo, hmeets.codecs⟩, ?_⟩
    have hmem := hasked.mpr (by simpa using hmeets.channels)
    rw [checkChannels, stored_channels p hne, if_neg (fun hnot => hnot.2 hmem)]

end

/-- The check of capabilities is exact: a receiver is accepted exactly when its document literally meets
the requirements, and its entry holds the values of the document. -/
structure Exact (info : CapabilityInfo) (p : ReceiverProfile) (channels : UInt32) : Prop where
  accepted : Accepted info p channels ↔ info.Meets channels
  stored : StoredAs info (p.updateEntryCapabilities info).toAudioProfile

/-- **When the check of capabilities is exact.** For every document, entry and number of channels asked
for: when the numbers of the document fit the types of the entry, and the number of channels fits a
byte, or the document does not meet the requirements for its last byte either. -/
theorem capabilities_exact_iff (info : CapabilityInfo) (p : ReceiverProfile) (channels : UInt32) :
    Exact info p channels ↔
      info.Fits ∧ (channels.toNat < 2 ^ 8 ∨ ¬ info.Meets channels.toUInt8.toUInt32) := by
  constructor
  · rintro ⟨haccepted, hstored⟩
    have hfits := storedAs_iff.mp hstored
    refine ⟨hfits, ?_⟩
    by_cases hmeets : info.Meets channels.toUInt8.toUInt32
    · have hliteral := haccepted.mp ((accepted_iff hfits).mpr hmeets)
      exact .inl (hfits.channels _ hliteral.channels)
    · exact .inr hmeets
  · rintro ⟨hfits, hchannels⟩
    refine ⟨?_, storedAs_iff.mpr hfits⟩
    rw [accepted_iff hfits]
    by_cases hsmall : channels.toNat < 2 ^ 8
    · have hsame : channels.toUInt8.toUInt32 = channels := by
        apply UInt32.toNat_inj.mp
        simp only [UInt8.toNat_toUInt32, UInt32.toNat_toUInt8]
        exact Nat.mod_eq_of_lt hsmall
      rw [hsame]
    · have hnot : ¬ info.Meets channels.toUInt8.toUInt32 := by tauto
      exact iff_of_false hnot fun hmeets => hsmall (hfits.channels _ hmeets.channels)

def narrowedDocument : Json :=
  .object [("transports", .array [.string "rtp_udp"]), ("sample_rates", .array [.number 4295015296]),
    ("bit_depths", .array [.number 16]), ("channels", .array [.number 2]),
    ("codecs", .array [.string "pcm_s16le"])]

/-- The rate 2^32 + 48000 is read as 48000. -/
theorem narrowed_rate_accepted :
    let info : CapabilityInfo := { audio := some narrowedDocument }
    Accepted info {} 2 ∧ ¬ info.Meets 2 ∧
      (ReceiverProfile.updateEntryCapabilities info {}).supportedSampleRates = [48000] := by
  refine ⟨⟨by rfl, by rfl⟩, fun hmeets => ?_, by rfl⟩
  have hlisted := hmeets.sample_rates
  revert hlisted
  decide

end MichiServer.Receivers
