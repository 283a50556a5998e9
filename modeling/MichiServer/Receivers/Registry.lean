import Mathlib.Data.List.Basic
import Mathlib.Data.List.Nodup

/-!
# The receiver registry

`ReceiverRegistry` of `models.rs`: a map from receiver ids to entries, which also finds an entry by its
michi id. The map is the list of its entries in the order it is iterated in, which is any order; that
their receiver ids are distinct is a field.
-/

namespace MichiServer.Receivers

inductive ReceiverPresence where
  | unknown | offline | verifiedOnline | provisionalMdns | degraded
deriving DecidableEq

/-- `ReceiverRegistryEntry`, with the fields that trust and sessions are about. Of its qualification only
`IdentityMismatch` is ever tested. -/
structure ReceiverRegistryEntry where
  receiverId : String
  michiId : Option String := none
  baseUrl : String := ""
  paired : Bool := false
  token : Option String := none
  presence : ReceiverPresence := .unknown
  activeSessionId : Option String := none
  authenticated : Bool := false
  revoked : Bool := false
  identityMismatch : Bool := false
deriving DecidableEq

namespace ReceiverRegistryEntry

/-- What a revocation does to an entry: revoked, unauthenticated, unpaired, and without its token. -/
def revoke (e : ReceiverRegistryEntry) : ReceiverRegistryEntry :=
  { e with revoked := true, paired := false, authenticated := false, token := none }

/-- The entry is marked revoked, unpaired, unauthenticated, and holds no session token. -/
def Marked (e : ReceiverRegistryEntry) : Prop :=
  e.revoked = true ∧ e.paired = false ∧ e.authenticated = false ∧ e.token = none

instance (e : ReceiverRegistryEntry) : Decidable e.Marked := inferInstanceAs (Decidable (_ ∧ _))

@[simp] theorem marked_revoke (e : ReceiverRegistryEntry) : e.revoke.Marked := by
  simp [revoke, Marked]

end ReceiverRegistryEntry

structure ReceiverRegistry where
  receivers : List ReceiverRegistryEntry := []
  key : (receivers.map ReceiverRegistryEntry.receiverId).Nodup := by simp

namespace ReceiverRegistry

def map (reg : ReceiverRegistry) (f : ReceiverRegistryEntry → ReceiverRegistryEntry) :
    ReceiverRegistry where
  receivers := reg.receivers.map fun e => { f e with receiverId := e.receiverId }
  key := by
    rw [List.map_map]
    exact reg.key

def updateAll (reg : ReceiverRegistry) (p : ReceiverRegistryEntry → Bool)
    (f : ReceiverRegistryEntry → ReceiverRegistryEntry) : ReceiverRegistry :=
  reg.map fun e => if p e then f e else e

def add (reg : ReceiverRegistry) (entry : ReceiverRegistryEntry) : ReceiverRegistry where
  receivers := (reg.receivers.filter fun e => e.receiverId ≠ entry.receiverId) ++ [entry]
  key := by
    rw [List.map_append, List.nodup_append]
    refine ⟨(reg.key.sublist (List.filter_sublist.map _)), by simp, ?_⟩
    grind

def remove (reg : ReceiverRegistry) (id : String) : ReceiverRegistry where
  receivers := reg.receivers.filter fun e => e.receiverId ≠ id
  key := reg.key.sublist (List.filter_sublist.map _)

def entry (reg : ReceiverRegistry) (id : String) : Option ReceiverRegistryEntry :=
  reg.receivers.find? fun e => e.receiverId = id

def get (reg : ReceiverRegistry) (id : String) : Option ReceiverRegistryEntry :=
  (reg.entry id).or (reg.receivers.find? fun e => e.michiId = some id ∨ e.receiverId = id)

def getMut (reg : ReceiverRegistry) (id : String) : Option ReceiverRegistryEntry :=
  (reg.entry id).or (reg.receivers.find? fun e => e.michiId = some id)

def modify (reg : ReceiverRegistry) (id : String)
    (f : ReceiverRegistryEntry → ReceiverRegistryEntry) : ReceiverRegistry :=
  match reg.getMut id with
  | some found => reg.updateAll (fun e => e.receiverId = found.receiverId) f
  | none => reg

variable {reg : ReceiverRegistry} {f : ReceiverRegistryEntry → ReceiverRegistryEntry}
  {p : ReceiverRegistryEntry → Bool} {id : String} {e' entry : ReceiverRegistryEntry}

theorem mem_map (h : e' ∈ (reg.map f).receivers) :
    ∃ e ∈ reg.receivers, e' = { f e with receiverId := e.receiverId } := by
  obtain ⟨e, he, rfl⟩ := List.mem_map.mp h
  exact ⟨e, he, rfl⟩

theorem mem_updateAll (h : e' ∈ (reg.updateAll p f).receivers) :
    ∃ e ∈ reg.receivers,
      (p e = true ∧ e' = { f e with receiverId := e.receiverId }) ∨ (p e = false ∧ e' = e) := by
  obtain ⟨e, he, rfl⟩ := mem_map h
  refine ⟨e, he, ?_⟩
  cases hp : p e with
  | true => exact .inl ⟨rfl, by simp⟩
  | false => exact .inr ⟨rfl, by simp⟩

variable {e : ReceiverRegistryEntry}

theorem mem_of_getMut (h : reg.getMut id = some e) :
    e ∈ reg.receivers := by
  rcases Option.or_eq_some_iff.mp h with hkey | ⟨-, hmichi⟩
  · exact List.mem_of_find?_eq_some hkey
  · exact List.mem_of_find?_eq_some hmichi

theorem mem_of_get (h : reg.get id = some e) : e ∈ reg.receivers := by
  obtain hkey | ⟨-, hfound⟩ := Option.or_eq_some_iff.mp h
  · exact List.mem_of_find?_eq_some hkey
  · exact List.mem_of_find?_eq_some hfound

theorem eq_of_receiverId {e₁ e₂ : ReceiverRegistryEntry} (h₁ : e₁ ∈ reg.receivers)
    (h₂ : e₂ ∈ reg.receivers) (h : e₁.receiverId = e₂.receiverId) : e₁ = e₂ :=
  List.inj_on_of_nodup_map reg.key h₁ h₂ h

theorem mem_modify (h : e' ∈ (reg.modify id f).receivers) :
    e' ∈ reg.receivers ∨
      ∃ e, reg.getMut id = some e ∧ e' = { f e with receiverId := e.receiverId } := by
  unfold modify at h
  split at h
  · rename_i found hfound
    obtain ⟨e, he, hupdated | hkept⟩ := mem_updateAll h
    · have hid : e.receiverId = found.receiverId := by simpa using hupdated.1
      obtain rfl := eq_of_receiverId he (mem_of_getMut hfound) hid
      exact .inr ⟨e, hfound, hupdated.2⟩
    · exact .inl (hkept.2 ▸ he)
  · exact .inl h

theorem mem_add (h : e' ∈ (reg.add entry).receivers) : e' ∈ reg.receivers ∨ e' = entry := by
  rcases List.mem_append.mp h with hold | hnew
  · exact .inl (List.mem_of_mem_filter hold)
  · exact .inr (List.mem_singleton.mp hnew)

/-! ### The entry under an id -/

theorem entry_receiverId (h : reg.entry id = some e) :
    e.receiverId = id := by
  simpa using List.find?_some h

theorem getMut_of_entry (h : reg.entry id = some e) :
    reg.getMut id = some e := by
  rw [getMut, h, Option.some_or]

theorem get_eq_none_of_getMut (h : reg.getMut id = none) : reg.get id = none := by
  obtain ⟨hkey, hmichi⟩ := Option.or_eq_none_iff.mp h
  grind [get, entry]

theorem entry_map : (reg.map f).entry id =
    (reg.entry id).map fun e => { f e with receiverId := e.receiverId } := by
  simp only [entry, map, List.find?_map]
  rfl

theorem entry_modify_of_entry (h : reg.entry id = some e) (id' : String) :
    (reg.modify id f).entry id' =
      if id' = id then some { f e with receiverId := id } else reg.entry id' := by
  have hid : e.receiverId = id := entry_receiverId h
  simp only [modify, getMut_of_entry h, updateAll, entry_map, hid]
  split
  · grind
  · rename_i hne
    cases hentry : reg.entry id' with
    | none => rfl
    | some e' =>
      obtain rfl : e'.receiverId = id' := entry_receiverId hentry
      simp [hne]

theorem entry_modify_field {α : Type} (reg : ReceiverRegistry) (id : String)
    (g : ReceiverRegistryEntry → α) (hf : ∀ e, g { f e with receiverId := e.receiverId } = g e)
    (id' : String) :
    ((reg.modify id f).entry id').map g = (reg.entry id').map g := by
  unfold modify
  split
  · rw [updateAll, entry_map, Option.map_map]
    refine Option.map_congr fun e _ => ?_
    simp only [Function.comp_apply]
    split
    · exact hf e
    · rfl
  · rfl

/-! ### Look-ups after one entry is written

`e` is the entry that is written, and `f e` what it becomes. -/

section Write

variable {e e₀ : ReceiverRegistryEntry} {y : String}

theorem entry_of_mem (he : e ∈ reg.receivers) : reg.entry e.receiverId = some e := by
  cases h : reg.entry e.receiverId with
  | none => exact absurd (List.find?_eq_none.mp h e he) (by simp)
  | some found => rw [eq_of_receiverId (List.mem_of_find?_eq_some h) he (entry_receiverId h)]

theorem entry_update (he : e ∈ reg.receivers) (id : String) :
    (reg.updateAll (fun a => a.receiverId = e.receiverId) f).entry id =
      if id = e.receiverId then some { f e with receiverId := e.receiverId }
      else reg.entry id := by
  have hentry := entry_of_mem he
  have hmodify := entry_modify_of_entry (f := f) hentry id
  rw [modify, getMut_of_entry hentry] at hmodify
  exact hmodify

theorem find_map {α : Type} {l : List α} {p : α → Bool} {g : α → α} {a : α}
    (h : l.find? p = some a) (ha : p (g a) = true) (hg : ∀ b ∈ l, p (g b) = true → p b = true) :
    (l.map g).find? p = some (g a) := by
  obtain ⟨-, before, after, rfl, hbefore⟩ := List.find?_eq_some_iff_append.mp h
  refine List.find?_eq_some_iff_append.mpr ⟨ha, before.map g, after.map g, by simp, ?_⟩
  grind

def written (e : ReceiverRegistryEntry) (f : ReceiverRegistryEntry → ReceiverRegistryEntry)
    (a : ReceiverRegistryEntry) : ReceiverRegistryEntry :=
  { (if decide (a.receiverId = e.receiverId) then f a else a) with receiverId := a.receiverId }

theorem receivers_write :
    (reg.updateAll (fun a => a.receiverId = e.receiverId) f).receivers =
      reg.receivers.map (written e f) := rfl

@[simp] theorem written_self : written e f e = { f e with receiverId := e.receiverId } := by
  simp [written]

theorem written_of_ne (h : e₀.receiverId ≠ e.receiverId) : written e f e₀ = e₀ := by
  simp [written, h]

theorem written_cases (he : e ∈ reg.receivers) {b : ReceiverRegistryEntry} (hb : b ∈ reg.receivers) :
    b = e ∨ written e f b = b := by
  grind [eq_of_receiverId, written_of_ne]

theorem getMut_update_of_ne (he : e ∈ reg.receivers) (hget : reg.getMut y = some e₀)
    (hne : e₀.receiverId ≠ e.receiverId)
    (hf : (f e).michiId = some y → e.michiId = some y) :
    (reg.updateAll (fun a => a.receiverId = e.receiverId) f).getMut y = some e₀ := by
  rw [getMut, entry_update he]
  obtain hkey | ⟨hkey, hmichi⟩ := Option.or_eq_some_iff.mp hget
  · grind [entry_receiverId]
  · have hid : ¬ y = e.receiverId := by
      rintro rfl
      exact List.find?_eq_none.mp hkey e he (by simp)
    rw [if_neg hid, hkey, Option.none_or]
    have hy := List.find?_some hmichi
    have hkept := written_of_ne (f := f) hne
    grind [receivers_write, find_map, written_cases, written_self]

theorem getMut_update_self (hget : reg.getMut y = some e)
    (hf : e.receiverId = y ∨ (f e).michiId = e.michiId) :
    (reg.updateAll (fun a => a.receiverId = e.receiverId) f).getMut y =
      some { f e with receiverId := e.receiverId } := by
  have he := mem_of_getMut hget
  rw [getMut, entry_update he]
  by_cases hid : y = e.receiverId
  · rw [if_pos hid, Option.some_or]
  · have hkept := hf.resolve_left (Ne.symm hid)
    obtain hkey | ⟨hkey, hmichi⟩ := Option.or_eq_some_iff.mp hget
    · exact absurd (entry_receiverId hkey).symm hid
    rw [if_neg hid, hkey, Option.none_or]
    have hy := List.find?_some hmichi
    rw [receivers_write, find_map hmichi (by rw [written_self]; simpa [hkept] using hy), written_self]
    grind [written_cases]

/-- An entry that gets an id nobody has is found under it. -/
theorem getMut_update_of_none (he : e ∈ reg.receivers) (hget : reg.getMut y = none)
    (hf : (f e).michiId = some y) :
    (reg.updateAll (fun a => a.receiverId = e.receiverId) f).getMut y =
      some { f e with receiverId := e.receiverId } := by
  obtain ⟨hkey, hmichi⟩ := Option.or_eq_none_iff.mp hget
  have hid : ¬ y = e.receiverId := by
    rintro rfl
    exact List.find?_eq_none.mp hkey e he (by simp)
  rw [getMut, entry_update he, if_neg hid, hkey, Option.none_or]
  have hnone := List.find?_eq_none.mp hmichi
  rw [receivers_write]
  cases hfound : (reg.receivers.map (written e f)).find? fun a => a.michiId = some y with
  | none =>
    refine absurd (List.find?_eq_none.mp hfound _ (List.mem_map_of_mem he)) ?_
    simpa using hf
  | some found =>
    obtain ⟨b, hb, rfl⟩ := List.mem_map.mp (List.mem_of_find?_eq_some hfound)
    obtain rfl | hsame := written_cases (f := f) he hb
    · simp
    · grind

theorem getMut_add_of_ne (hkey : reg.entry entry.receiverId = none)
    (hid : y ≠ entry.receiverId) (hmichi : entry.michiId ≠ some y) :
    (reg.add entry).getMut y = reg.getMut y := by
  have hfilter : reg.receivers.filter (fun e => e.receiverId ≠ entry.receiverId) =
      reg.receivers := by
    refine List.filter_eq_self.mpr fun a ha => ?_
    have := List.find?_eq_none.mp hkey a ha
    simpa using this
  grind [getMut, ReceiverRegistry.entry, add]

theorem entry_add_of_ne (hne : y ≠ entry.receiverId) :
    (reg.add entry).entry y = reg.entry y := by
  simp only [ReceiverRegistry.entry, add, List.find?_append, List.find?_filter]
  grind [ReceiverRegistryEntry]

theorem entry_add_self : (reg.add entry).entry entry.receiverId = some entry := by
  grind [ReceiverRegistry.entry, add]

theorem getMut_add_self : (reg.add entry).getMut entry.receiverId = some entry :=
  getMut_of_entry entry_add_self

theorem get_add_self : (reg.add entry).get entry.receiverId = some entry := by
  rw [get, entry_add_self, Option.some_or]

end Write

end ReceiverRegistry

end MichiServer.Receivers
