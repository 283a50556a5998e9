import Mathlib
import MichiServer.Logic.Handler
import MichiServer.Playback.Model
import MichiServer.Receivers.Registry

/-!
# Does each receiver get one sink?

`resolve_output` makes a sink of every stored id that finds a paired entry. An id may be stored twice,
and two ids may find one entry, by its key and by its michi id; then a receiver has two sinks, and is
handed each chunk twice. The volume of a link is clamped, that of a room is cut to its last eight bits.
-/

namespace MichiServer.Receivers.Outputs

open MichiServer.Logic MichiServer.Playback

inductive PlaybackOutputSelection where
  | receiver (id : String)
  | roomGroup (id : Uuid)
  | chain (id : Uuid)
deriving DecidableEq

structure RoomGroup where
  id : Uuid
  name : String
  receiverIds : List String
  volumes : String → Option ℕ

structure ChainLink where
  receiverId : String
  volume : ℤ
  muted : Bool := false

structure ReceiverAudioSink where
  receiverId : String
  volume : ℕ := 80
  muted : Bool := false

structure ResolvedOutputPlan where
  sinks : List ReceiverAudioSink
  description : PlaybackOutputDescription

/-- The registry with the names of its entries, and the answers of the database. -/
structure OutputState where
  registry : ReceiverRegistry
  name : String → String := id
  listRoomGroupsDb : Except String (List RoomGroup) := .ok []
  getChainWithLinks : Uuid → Except String (Option (String × List ChainLink)) := fun _ => .ok none

/-! ## The source -/

/-- The loops over ids: what does not find a paired entry is left out. -/
def pairedSinks (reg : ReceiverRegistry) (sinks : List ReceiverAudioSink) : List ReceiverAudioSink :=
  sinks.filterMap fun sink =>
    match reg.get sink.receiverId with
    | some entry => if entry.paired then some sink else none
    | none => none

def RoomGroup.sink (group : RoomGroup) (rId : String) : ReceiverAudioSink :=
  ⟨rId, (group.volumes rId).getD 80 % 2 ^ 8, false⟩

def ChainLink.sink (link : ChainLink) : ReceiverAudioSink :=
  ⟨link.receiverId, (max 0 (min link.volume 100)).toNat, link.muted⟩

def plan (sinks : List ReceiverAudioSink) (targetId targetName kind unavailable : String) :
    Except PlaybackError ResolvedOutputPlan :=
  if sinks.isEmpty then .error (.outputUnavailable unavailable)
  else .ok ⟨sinks, ⟨targetId, targetName, kind, sinks.length⟩⟩

def resolveOutput (s : OutputState) :
    PlaybackOutputSelection → Except PlaybackError ResolvedOutputPlan
  | .receiver id =>
    match s.registry.get id with
    | some entry =>
      if !entry.paired then .error (.receiverNotPaired id)
      else .ok ⟨[{ receiverId := id }], ⟨id, s.name entry.receiverId, "receiver", 1⟩⟩
    | none => .error (.receiverNotPaired id)
  | .roomGroup id =>
    match s.listRoomGroupsDb with
    | .error e => .error (.database e)
    | .ok groups =>
      match groups.find? fun group => group.id = id with
      | none => .error (.outputNotFound (toString id))
      | some group =>
        if group.receiverIds.isEmpty then
          .error (.outputUnavailable "room group has no configured receivers")
        else plan (pairedSinks s.registry (group.receiverIds.map group.sink)) (toString id) group.name
          "room_group" "none of the receivers in the room group are paired or available"
  | .chain id =>
    match s.getChainWithLinks id with
    | .error e => .error (.database e)
    | .ok none => .error (.outputNotFound (toString id))
    | .ok (some (name, links)) =>
      if links.isEmpty then .error (.outputUnavailable "playback chain has no links configured")
      else plan (pairedSinks s.registry (links.map ChainLink.sink)) (toString id) name "chain"
        "none of the receivers in the chain are paired or available"

/-! ## The law -/

def receiver (reg : ReceiverRegistry) (id : String) : Option String :=
  ((reg.get id).filter (·.paired)).map (·.receiverId)

def RoomGroup.target (group : RoomGroup) (rId : String) : ReceiverAudioSink :=
  ⟨rId, min ((group.volumes rId).getD 80) 100, false⟩

def OutputState.roomGroup (s : OutputState) (id : Uuid) : Option RoomGroup :=
  match s.listRoomGroupsDb with
  | .ok groups => groups.find? fun group => group.id = id
  | .error _ => none

def OutputState.links (s : OutputState) (id : Uuid) : List ChainLink :=
  match s.getChainWithLinks id with
  | .ok (some (_, links)) => links
  | _ => []

/-- What is stored under a selection, with the volumes as they are meant. -/
def OutputState.targets (s : OutputState) : PlaybackOutputSelection → List ReceiverAudioSink
  | .receiver id => [{ receiverId := id }]
  | .roomGroup id =>
    match s.roomGroup id with
    | some group => group.receiverIds.map group.target
    | none => []
  | .chain id => (s.links id).map ChainLink.sink

/-- The sinks are among the targets, in their order; each is of a paired receiver, each paired receiver
of the targets has one, and none has two. -/
structure OneEach (reg : ReceiverRegistry) (targets sinks : List ReceiverAudioSink) : Prop where
  in_order : sinks.Sublist targets
  paired : ∀ sink ∈ sinks, (receiver reg sink.receiverId).isSome
  each : ∀ t ∈ targets, ∀ r, receiver reg t.receiverId = some r →
    ∃ sink ∈ sinks, receiver reg sink.receiverId = some r
  once : (sinks.filterMap fun sink => receiver reg sink.receiverId).Nodup

def ResolvesOneEach (s : OutputState) (selection : PlaybackOutputSelection) : Prop :=
  ∀ plan, resolveOutput s selection = .ok plan →
    OneEach s.registry (s.targets selection) plan.sinks

/-- The stored volumes of a room's paired receivers keep their value, or come to the bound anyway. -/
def FitVolumes (s : OutputState) : PlaybackOutputSelection → Prop
  | .roomGroup id => ∀ group ∈ s.roomGroup id, ∀ r ∈ group.receiverIds,
      (receiver s.registry r).isSome → ∀ v ∈ group.volumes r, v ≤ 100 ∨ v % 2 ^ 8 = 100
  | _ => True

section

variable {reg : ReceiverRegistry} {targets : List ReceiverAudioSink} {s : OutputState}

theorem pairedSinks_eq (sinks : List ReceiverAudioSink) :
    pairedSinks reg sinks = sinks.filter fun sink => (receiver reg sink.receiverId).isSome := by
  rw [pairedSinks, ← List.filterMap_eq_filter]
  congr 1
  grind [receiver]

theorem filterMap_paired (sinks : List ReceiverAudioSink) :
    ((pairedSinks reg sinks).filterMap fun sink => receiver reg sink.receiverId) =
      sinks.filterMap fun sink => receiver reg sink.receiverId := by
  rw [pairedSinks_eq, List.filterMap_filter]
  congr 1
  funext sink
  cases receiver reg sink.receiverId <;> rfl

theorem one_each_iff : OneEach reg targets (pairedSinks reg targets) ↔
    (targets.filterMap fun t => receiver reg t.receiverId).Nodup := by
  rw [← filterMap_paired]
  refine ⟨OneEach.once, fun h => ⟨?_, fun sink hsink => ?_, fun t ht r hr => ⟨t, ?_, hr⟩, h⟩⟩
  · rw [pairedSinks_eq]
    exact List.filter_sublist
  · rw [pairedSinks_eq] at hsink
    exact (List.mem_filter.mp hsink).2
  · grind [pairedSinks_eq]

theorem sink_eq_target {group : RoomGroup} {r : String} :
    group.sink r = group.target r ↔ ∀ v ∈ group.volumes r, v ≤ 100 ∨ v % 2 ^ 8 = 100 := by
  cases h : group.volumes r <;> simp [RoomGroup.sink, RoomGroup.target, h]
  omega

/-- A room has one sink for each receiver exactly where its receivers are known and differ. -/
theorem room_one_each_iff {group : RoomGroup} :
    OneEach reg (group.receiverIds.map group.target)
        (pairedSinks reg (group.receiverIds.map group.sink)) ↔
      ((group.receiverIds.map group.target).filterMap fun t => receiver reg t.receiverId).Nodup ∧
        ∀ r ∈ group.receiverIds, (receiver reg r).isSome →
          ∀ v ∈ group.volumes r, v ≤ 100 ∨ v % 2 ^ 8 = 100 := by
  have hids : ((group.receiverIds.map group.sink).filterMap fun t => receiver reg t.receiverId) =
      (group.receiverIds.map group.target).filterMap fun t => receiver reg t.receiverId := by
    rw [List.filterMap_map, List.filterMap_map]
    rfl
  constructor
  · intro h
    refine ⟨by rw [← hids, ← filterMap_paired]; exact h.once, fun r hr hpaired => ?_⟩
    have hsink : group.sink r ∈ pairedSinks reg (group.receiverIds.map group.sink) := by
      rw [pairedSinks_eq]
      exact List.mem_filter.mpr ⟨List.mem_map_of_mem hr, hpaired⟩
    obtain ⟨r', -, heq⟩ := List.mem_map.mp (h.in_order.subset hsink)
    obtain rfl : r' = r := congrArg ReceiverAudioSink.receiverId heq
    exact sink_eq_target.mp heq.symm
  · rintro ⟨hdistinct, hfit⟩
    have hsame : pairedSinks reg (group.receiverIds.map group.sink) =
        pairedSinks reg (group.receiverIds.map group.target) := by
      rw [pairedSinks_eq, pairedSinks_eq, List.filter_map, List.filter_map]
      refine List.map_congr_left fun r hr => ?_
      obtain ⟨hmem, hpaired⟩ := List.mem_filter.mp hr
      exact sink_eq_target.mpr (hfit r hmem hpaired)
    rw [hsame]
    exact one_each_iff.mpr hdistinct

theorem one_each_of_plan_iff {sinks : List ReceiverAudioSink}
    {targetId targetName kind unavailable : String}
    (h : (targets.filterMap fun t => receiver reg t.receiverId) =
      sinks.filterMap fun sink => receiver reg sink.receiverId) :
    (∀ r, plan sinks targetId targetName kind unavailable = .ok r → OneEach reg targets r.sinks) ↔
      OneEach reg targets sinks := by
  unfold plan
  by_cases hsinks : sinks = []
  · rw [hsinks] at h ⊢
    have hnone := List.filterMap_eq_nil_iff.mp h
    refine iff_of_true (fun r hr => nomatch hr) ⟨List.nil_sublist _, by simp, fun t ht r hr => ?_, by simp⟩
    cases (hnone t ht).symm.trans hr
  · simp [hsinks]

end

/-- Whenever an output is resolved, its sinks are one for each receiver and as they are meant exactly
where no two of the stored ids find one paired entry, and the stored volumes of a room fit. -/
theorem resolves_one_each_iff (s : OutputState) (selection : PlaybackOutputSelection) :
    ResolvesOneEach s selection ↔
      ((s.targets selection).filterMap fun t => receiver s.registry t.receiverId).Nodup ∧
        FitVolumes s selection := by
  unfold ResolvesOneEach
  cases selection with
  | receiver id =>
    refine iff_of_true (fun plan hplan => ?_) ⟨?_, trivial⟩
    · simp only [resolveOutput] at hplan
      split at hplan
      next entry hget =>
        split at hplan
        · cases hplan
        next hpaired =>
          cases hplan
          have hreceiver : receiver s.registry id = some entry.receiverId := by
            simp [receiver, hget, Option.filter, by simpa using hpaired]
          exact ⟨.refl _, by simp [hreceiver], by simp [OutputState.targets], by simp [hreceiver]⟩
      next => cases hplan
    · cases hreceiver : receiver s.registry id with
      | none => simp [OutputState.targets, hreceiver]
      | some entryId => simp [OutputState.targets, hreceiver]
  | roomGroup id =>
    simp only [resolveOutput, OutputState.targets, FitVolumes, OutputState.roomGroup]
    cases hgroups : s.listRoomGroupsDb with
    | error e => simp
    | ok groups =>
      dsimp only
      cases hgroup : groups.find? fun group => group.id = id with
      | none => simp
      | some group =>
        dsimp only
        cases hids : group.receiverIds with
        | nil => simp [hids]
        | cons r rest =>
          rw [← hids, if_neg (by simp [hids]), one_each_of_plan_iff, room_one_each_iff]
          · simp
          · rw [filterMap_paired, List.filterMap_map, List.filterMap_map]
            rfl
  | chain id =>
    simp only [resolveOutput, OutputState.targets, FitVolumes, OutputState.links]
    cases hchain : s.getChainWithLinks id with
    | error e => simp
    | ok found =>
      cases found with
      | none => simp
      | some chain =>
        dsimp only
        cases hlinks : chain.2 with
        | nil => simp
        | cons link rest =>
          simp [one_each_of_plan_iff, one_each_iff, filterMap_paired]

def kitchen : ReceiverRegistry where
  receivers := [{ receiverId := "kitchen", michiId := some "m1", paired := true }]

/-- A room that has the kitchen twice, by its key and by its michi id, at a volume of 300. -/
def doubled : OutputState where
  registry := kitchen
  listRoomGroupsDb := .ok [⟨1, "home", ["kitchen", "m1"], fun _ => some 300⟩]

/-- The kitchen has two sinks, at a volume of 44. -/
theorem kitchen_has_two_sinks : ¬ ResolvesOneEach doubled (.roomGroup 1) := by
  intro h
  have honce := (h ⟨[⟨"kitchen", 44, false⟩, ⟨"m1", 44, false⟩], ⟨toString 1, "home", "room_group", 2⟩⟩
    rfl).once
  revert honce
  decide

end MichiServer.Receivers.Outputs
