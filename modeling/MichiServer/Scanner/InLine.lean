import MichiServer.Scanner.Jobs
import MichiServer.Scanner.Agreement

/-!
# What a reconciliation leaves

When the file system holds still and answers truly, and nobody cancels, a reconciliation that goes
through leaves a row for every scanned track; the other rows stay, but for those under the root whose
files are gone. It goes through unless the database fails, the id of a track is taken, or what refers to
a row keeps it (`writeRoot_in_line`).
-/

namespace MichiServer.Scanner

open MichiServer.Files MichiServer.Text MichiServer.Interleave

def Library.rowsUnder (lib : Library) (root : Path) : List Track :=
  lib.tracks.filter fun t => pathStartsWith (asBytes t.filePath) root

def opened (disk : Disk FileData) (path : Path) : Option Stored :=
  match disk.openPath path with
  | some (.dir _) => some .dir
  | some (.file data) => some (.file data)
  | _ => none

/-- The calls at this moment are answered from the tree and nobody cancels; and where the database is
calm it does not fail. -/
structure Shows (disk : Disk FileData) (calm : Prop) (m : Moment) : Prop where
  present : ∀ path, m.present path = opened disk path
  goes_on : m.cancelled = false
  answers : calm → m.dbError = none

structure RowOf (t row : Track) : Prop where
  id : row.id = t.id
  filePath : row.filePath = t.filePath
  stamp : row.stamp = t.stamp

/-- The ids of the tracks can be taken in this order: no row of another path has one, unless the path
comes earlier, and a row that gets another id is not referred to. -/
def IdsFree (lib : Library) (tracks : List Track) : Prop :=
  ∀ earlier t later, tracks = earlier ++ t :: later → ∀ row ∈ lib.tracks,
    (row.id = t.id → row.filePath = t.filePath ∨ row.filePath ∈ earlier.map Track.filePath) ∧
    (row.filePath = t.filePath → row.id = t.id ∨ lib.refers row.id = false)

theorem dedupIds_of_nodup {tracks : List Track} {seen : List Uuid} (hids : (tracks.map Track.id).Nodup)
    (hseen : ∀ t ∈ tracks, t.id ∉ seen) : dedupIds seen tracks = tracks := by
  induction tracks generalizing seen with
  | nil => rfl
  | cons t rest ih =>
    grind [dedupIds]

/-! ## Upserts -/

section

variable {lib lib' : Library} {tracks : List Track} {t row : Track}

theorem RowOf.refl (t : Track) : RowOf t t := ⟨rfl, rfl, rfl⟩

theorem RowOf.trans {u : Track} (h : RowOf t u) (h' : RowOf u row) : RowOf t row :=
  ⟨h'.id.trans h.id, h'.filePath.trans h.filePath, h'.stamp.trans h.stamp⟩

theorem rowOf_upserted : RowOf t (lib.upserted t) := ⟨rfl, rfl, rfl⟩

theorem mem_upsertTracks_of_ne (h : lib.upsertTracks tracks = .ok lib') (hrow : row ∈ lib.tracks)
    (hpath : row.filePath ∉ tracks.map Track.filePath) : row ∈ lib'.tracks := by
  induction tracks generalizing lib with
  | nil =>
    cases h
    exact hrow
  | cons t rest ih =>
    rw [List.map_cons, List.mem_cons, not_or] at hpath
    rw [Library.upsertTracks] at h
    split at h
    next hone => exact ih h ((Library.mem_upsertTrack hone).mpr (.inr ⟨hrow, hpath.1⟩)) hpath.2
    · cases h

theorem rows_upsertTracks (h : lib.upsertTracks tracks = .ok lib') (hrow : row ∈ lib'.tracks) :
    (∃ t ∈ tracks, RowOf t row) ∨
      row ∈ lib.tracks ∧ row.filePath ∉ tracks.map Track.filePath := by
  induction tracks generalizing lib with
  | nil =>
    cases h
    exact .inr ⟨hrow, List.not_mem_nil⟩
  | cons t rest ih =>
    rw [Library.upsertTracks] at h
    split at h
    next hone =>
      rcases ih h with ⟨other, hother, hrowOf⟩ | ⟨hmem, hpath⟩
      · exact .inl ⟨other, List.mem_cons_of_mem _ hother, hrowOf⟩
      · rcases (Library.mem_upsertTrack hone).mp hmem with rfl | ⟨hold, hne⟩
        · exact .inl ⟨t, List.mem_cons_self, rowOf_upserted⟩
        · grind
    · cases h

theorem row_of_upsertTracks (h : lib.upsertTracks tracks = .ok lib')
    (hpaths : (tracks.map Track.filePath).Nodup) (ht : t ∈ tracks) :
    ∃ row ∈ lib'.tracks, RowOf t row := by
  induction tracks generalizing lib with
  | nil => cases ht
  | cons first rest ih =>
    rw [List.map_cons, List.nodup_cons] at hpaths
    rw [Library.upsertTracks] at h
    split at h
    next hone =>
      rcases List.mem_cons.mp ht with rfl | ht
      · have hmem := (Library.mem_upsertTrack hone).mpr (.inl rfl)
        exact ⟨_, mem_upsertTracks_of_ne h hmem hpaths.1, rowOf_upserted⟩
      · exact ih h hpaths.2 ht
    · cases h

/-- Tracks with free ids and paths of their own are stored. -/
theorem upsertTracks_ok (hids : (tracks.map Track.id).Nodup)
    (hpaths : (tracks.map Track.filePath).Nodup) (hfree : IdsFree lib tracks) :
    ∃ lib', lib.upsertTracks tracks = .ok lib' := by
  induction tracks generalizing lib with
  | nil => exact ⟨lib, rfl⟩
  | cons t rest ih =>
    rw [List.map_cons, List.nodup_cons] at hids hpaths
    have hfirst := hfree [] t rest rfl
    obtain ⟨lib₁, hone⟩ := Library.upsertTrack_ok
      (fun row hrow hid => ((hfirst row hrow).1 hid).resolve_right List.not_mem_nil)
      fun row hrow => (hfirst row hrow).2
    rw [Library.upsertTracks, hone]
    apply ih hids.2 hpaths.2
    rintro earlier other later rfl row hrow
    have hother : other ∈ earlier ++ other :: later := by simp
    rcases (Library.mem_upsertTrack hone).mp hrow with rfl | ⟨hold, hne⟩
    · -- the row of the first track has another id and another path than those of the others
      constructor
      · intro hid
        exact (hids.1 (List.mem_map.mpr ⟨other, hother, hid.symm⟩)).elim
      · intro hpath
        exact (hpaths.1 (List.mem_map.mpr ⟨other, hother, hpath.symm⟩)).elim
    · obtain ⟨htaken, hrefers⟩ := hfree (t :: earlier) other later rfl row hold
      grind [Library.refers, Library.references_upsertTrack]

section

variable {upserts : List Track} (hsame : List.Forall₂ RowOf tracks upserts)

include hsame

theorem paths_of_same : upserts.map Track.filePath = tracks.map Track.filePath := by
  induction hsame with
  | nil => rfl
  | cons hfirst _ ih => simp [hfirst.filePath, ih]

theorem idsOf_same : upserts.map Track.id = tracks.map Track.id := by
  induction hsame with
  | nil => rfl
  | cons hfirst _ ih => simp [hfirst.id, ih]

theorem exists_of_same : (∀ u ∈ upserts, ∃ t ∈ tracks, RowOf t u) ∧
    ∀ t ∈ tracks, ∃ u ∈ upserts, RowOf t u := by
  induction hsame with
  | nil => simp
  | cons hfirst _ ih =>
    grind

theorem IdsFree.same (h : IdsFree lib tracks) : IdsFree lib upserts := by
  rintro earlier u later rfl row hrow
  obtain ⟨front, t, back, rfl, hfront, hu⟩ : ∃ front t back, tracks = front ++ t :: back ∧
      List.Forall₂ RowOf front earlier ∧ RowOf t u := by
    clear h
    induction earlier generalizing tracks with
    | nil =>
      cases hsame with
      | cons hu _ => exact ⟨[], _, _, rfl, .nil, hu⟩
    | cons first rest ih =>
      cases hsame with
      | cons hfirst hrest =>
        obtain ⟨front, t, back, rfl, hfront, hu⟩ := ih hrest
        exact ⟨_ :: front, t, back, rfl, .cons hfirst hfront, hu⟩
  rw [hu.id, hu.filePath, paths_of_same hfront]
  exact h front t back rfl row hrow

end

end

/-! ## The writes of a reconciliation -/

def Gone (disk : Disk FileData) (scanned : List Uuid) (existing : Track) : Prop :=
  existing.id ∉ scanned ∧ opened disk (asBytes existing.filePath) = none

/-- What is left when the rows that are gone, and what refers to them, are deleted. -/
structure WithoutGone (disk : Disk FileData) (scanned : List Uuid) (rows : List Track)
    (lib lib' : Library) : Prop where
  tracks : ∀ row, row ∈ lib'.tracks ↔
    row ∈ lib.tracks ∧ ∀ existing ∈ rows, Gone disk scanned existing → row.id ≠ existing.id
  references : ∀ r, r ∈ lib'.references ↔
    r ∈ lib.references ∧ ∀ existing ∈ rows, Gone disk scanned existing → r.trackId ≠ existing.id

def Deletable (disk : Disk FileData) (scanned : List Uuid) (rows : List Track) (lib : Library) :
    Prop :=
  ∀ existing ∈ rows, Gone disk scanned existing → ∀ r ∈ lib.references,
    r.trackId = existing.id → r.table.cascades = true

/-- The library after a reconciliation with these tracks: each has its row, and the rows of other paths
stay unless they are gone. -/
structure InLine (disk : Disk FileData) (tracks rootExisting : List Track) (lib lib' : Library) :
    Prop where
  rows : ∀ row ∈ lib'.tracks, (∃ t ∈ tracks, RowOf t row) ∨
    row ∈ lib.tracks ∧ row.filePath ∉ tracks.map Track.filePath ∧
      (row ∈ rootExisting → ¬ Gone disk (tracks.map Track.id) row)
  scanned : ∀ t ∈ tracks, ∃ row ∈ lib'.tracks, RowOf t row
  kept : ∀ row ∈ lib.tracks, row.filePath ∉ tracks.map Track.filePath →
    (row ∈ rootExisting → ¬ Gone disk (tracks.map Track.id) row) → row ∈ lib'.tracks
  references : ∀ r, r ∈ lib'.references ↔ r ∈ lib.references ∧
    ∀ existing ∈ rootExisting, Gone disk (tracks.map Track.id) existing → r.trackId ≠ existing.id

abbrev Shown (o : Outside) (disk : Disk FileData) (calm : Prop) {α : Type} (Post : α → World → Prop)
    (p : CallProg α) (w : World) : Prop :=
  p.Meets (exec o) (fun _ w => Shows disk calm (o.history w.clock)) (fun _ _ => True) Post w

section

variable {o : Outside} {disk : Disk FileData} {calm : Prop} {w : World}

theorem Shown.step {c : Call} {β : Type} {f : c.Resp → CallProg β} {Q : β → World → Prop}
    (h : Shows disk calm (o.history w.clock) →
      Shown o disk calm Q (f (exec o c w).1) (exec o c w).2) :
    Shown o disk calm Q (call c >>= f) w :=
  fun hm => ⟨trivial, h hm⟩

theorem addHash_shown (path : Path) (t : Track) :
    Shown o disk calm (fun t' w' => RowOf t t' ∧ w'.lib = w.lib) (addHash path t) w := by
  refine Shown.step fun _ => ?_
  split
  · exact ⟨⟨rfl, rfl, rfl⟩, rfl⟩
  · exact ⟨.refl t, rfl⟩

theorem keepHash_shown (rootExisting : List Track) (t : Track) :
    Shown o disk calm (fun t' w' => RowOf t t' ∧ w'.lib = w.lib) (keepHash rootExisting t) w := by
  unfold keepHash
  split
  · exact ⟨.refl t, rfl⟩
  · apply Prog.Meets.ite
    · exact fun _ => ⟨⟨rfl, rfl, rfl⟩, rfl⟩
    · intro _
      apply Prog.Meets.ite
      · exact fun _ => addHash_shown _ t
      · exact fun _ => ⟨.refl t, rfl⟩

theorem tracksToUpsert_shown (rootExisting tracks : List Track) :
    Shown o disk calm
      (fun r w' => w'.lib = w.lib ∧ ∃ upserts, r = some upserts ∧ List.Forall₂ RowOf tracks upserts)
      (tracksToUpsert rootExisting tracks) w := by
  induction tracks generalizing w with
  | nil => exact ⟨rfl, [], rfl, .nil⟩
  | cons t rest ih =>
    refine Shown.step fun hm => ?_
    apply Prog.Meets.ite
    · intro hcancelled
      simp only [exec, hm.goes_on, Bool.false_eq_true] at hcancelled
    · intro _
      apply Prog.Meets.bind
      apply (keepHash_shown rootExisting t).mono
      rintro t' w₁ ⟨ht', hlib⟩
      apply Prog.Meets.bind
      apply ih.mono
      rintro _ w₂ ⟨hlib', others, rfl, hothers⟩
      exact ⟨hlib'.trans hlib, t' :: others, rfl, .cons ht' hothers⟩

/-- The rows without a track go, if their files are gone. -/
theorem deleteMissing_shown (scanned : List Uuid) (rows : List Track) :
    Shown o disk calm
      (fun r w' => (r = .ok () → WithoutGone disk scanned rows w.lib w'.lib) ∧
        (calm → Deletable disk scanned rows w.lib → r = .ok ()))
      (deleteMissing scanned rows) w := by
  induction rows generalizing w with
  | nil => exact ⟨fun _ => ⟨by simp, by simp⟩, fun _ _ => rfl⟩
  | cons existing rest ih =>
    have hskip : ∀ {w' : World}, w'.lib = w.lib → ¬ Gone disk scanned existing →
        Shown o disk calm
          (fun r w'' => (r = .ok () → WithoutGone disk scanned (existing :: rest) w.lib w''.lib) ∧
            (calm → Deletable disk scanned (existing :: rest) w.lib → r = .ok ()))
          (deleteMissing scanned rest) w' := by
      intro w' hlib hstays
      apply ih.mono
      rintro r w'' ⟨hwithout, hok⟩
      rw [hlib] at hwithout hok
      refine ⟨fun hr => ?_, fun hcalm hdeletable => hok hcalm fun other hother =>
        hdeletable other (List.mem_cons_of_mem _ hother)⟩
      obtain ⟨htracks, hreferences⟩ := hwithout hr
      constructor
      · simpa [List.forall_mem_cons, hstays] using htracks
      · simpa [List.forall_mem_cons, hstays] using hreferences
    apply Prog.Meets.ite
    · exact fun hscanned => hskip rfl fun hgone => hgone.1 hscanned
    · intro hscanned
      refine Shown.step fun hm => ?_
      apply Prog.Meets.ite
      · intro hexists
        simp only [exec, hm.present] at hexists
        refine hskip rfl fun hgone => ?_
        rw [hgone.2] at hexists
        cases hexists
      · intro habsent
        simp only [exec, hm.present, Option.not_isSome_iff_eq_none] at habsent
        refine Shown.step fun hm' => ?_
        generalize hw₁ : (exec o (.exists (asBytes existing.filePath)) w).2 = w₁ at hm' ⊢
        have hlib : w₁.lib = w.lib := by rw [← hw₁]; rfl
        rcases exec_deleteTrack (o := o) existing.id w₁ with ⟨e, he⟩ | ⟨deleted, lib, hdelete, he⟩
        · rw [he]
          refine ⟨nofun, fun hcalm hdeletable => ?_⟩
          obtain ⟨deleted, lib, hdelete⟩ : ∃ deleted lib, w₁.lib.deleteTrack existing.id =
              .ok (deleted, lib) := by
            apply Library.deleteTrack_ok
            rw [hlib]
            exact hdeletable existing List.mem_cons_self ⟨hscanned, habsent⟩
          rw [exec_deleteTrack_ok (hm'.answers hcalm) hdelete] at he
          cases he
        · rw [he]
          apply ih.mono
          rintro r w₂ ⟨hwithout, hok⟩
          refine ⟨fun hr => ?_, fun hcalm hdeletable => hok hcalm ?_⟩
          · obtain ⟨htracks, hreferences⟩ := hwithout hr
            constructor
            · grind [Library.mem_deleteTrack, Gone]
            · grind [Library.mem_references_deleteTrack, Gone]
          · intro other hother hgone r hr
            rw [Library.mem_references_deleteTrack hdelete, hlib] at hr
            exact hdeletable other (List.mem_cons_of_mem _ hother) hgone r hr.1

/-- All the tracks are stored, or none. -/
theorem upsertAll_shown (tracks : List Track) :
    Shown o disk calm
      (fun r w' => (r = .ok () → w.lib.upsertTracks tracks = .ok w'.lib) ∧
        (calm → (∃ lib, w.lib.upsertTracks tracks = .ok lib) → r = .ok ()))
      (if tracks.isEmpty then pure (.ok ()) else call (.upsertTracks tracks)) w := by
  apply Prog.Meets.ite
  · intro hnil
    rw [List.isEmpty_iff] at hnil
    subst hnil
    exact ⟨fun _ => rfl, fun _ _ => rfl⟩
  · intro _ hm
    refine ⟨trivial, ?_⟩
    rcases exec_upsertTracks (o := o) tracks w with ⟨e, he⟩ | ⟨lib, hlib, he⟩
    · rw [he]
      refine ⟨nofun, ?_⟩
      rintro hcalm ⟨lib, hlib⟩
      rw [exec_upsertTracks_ok (hm.answers hcalm) hlib] at he
      cases he
    · rw [he]
      exact ⟨fun _ => hlib, fun _ _ => rfl⟩

theorem exec_update_rows (path state reason : String) (deviceId : Option ℕ) (w : World) :
    (exec o (.updateMountState path state reason deviceId) w).2.lib.tracks = w.lib.tracks ∧
      (exec o (.updateMountState path state reason deviceId) w).2.lib.references =
        w.lib.references := by
  rcases exec_updateMountState (o := o) path state reason deviceId w with ⟨e, he⟩ | he <;>
    rw [he] <;> exact ⟨rfl, rfl⟩

theorem disappeared_shown {root : Path} (hopened : opened disk root = some .dir) :
    Shown o disk calm (fun gone w' => gone = false ∧ w'.lib = w.lib) (disappeared root) w := by
  refine Shown.step fun hm => ?_
  apply Prog.Meets.ite
  · intro _
    refine Shown.step fun hm' => ?_
    have hpresent : (o.history w.tick.clock).present root = some .dir :=
      (hm'.present root).trans hopened
    simp only [exec, hpresent]
    exact ⟨rfl, rfl⟩
  · intro habsent
    simp [exec, hm.present, hopened] at habsent

/-- The two writes bring the rows in line with the tracks. -/
theorem InLine.of_writes {tracks upserts rootExisting : List Track} {lib lib₁ lib₂ lib' : Library}
    (hexisting : ∀ existing ∈ rootExisting, existing ∈ lib.tracks)
    (hpaths : (tracks.map Track.filePath).Nodup) (hsame : List.Forall₂ RowOf tracks upserts)
    (htracks : lib₁.tracks = lib.tracks) (hreferences : lib₁.references = lib.references)
    (hupsert : lib₁.upsertTracks upserts = .ok lib₂)
    (hwithout : WithoutGone disk (tracks.map Track.id) rootExisting lib₂ lib') :
    InLine disk tracks rootExisting lib lib' := by
  have hpathsEq := paths_of_same hsame
  have hgoneOf : ∀ existing ∈ rootExisting, Gone disk (tracks.map Track.id) existing →
      ∀ row ∈ lib₂.tracks, row.id = existing.id → row ∈ rootExisting := by
    intro existing hexist hgone row hrow hid
    rcases rows_upsertTracks hupsert hrow with ⟨u, hu, hrowU⟩ | ⟨hold, -⟩
    · -- an upserted row has a scanned id
      apply (hgone.1 _).elim
      rw [← idsOf_same hsame, ← hid, hrowU.id]
      exact List.mem_map_of_mem hu
    · grind [Library.eq_of_id]
  constructor
  · intro row hrow
    obtain ⟨hmem, hstays⟩ := (hwithout.tracks row).mp hrow
    rcases rows_upsertTracks hupsert hmem with ⟨u, hu, hrowU⟩ | ⟨hold, hpath⟩
    · obtain ⟨t, ht, huT⟩ := (exists_of_same hsame).1 u hu
      exact .inl ⟨t, ht, huT.trans hrowU⟩
    · grind
  · intro t ht
    obtain ⟨u, hu, huT⟩ := (exists_of_same hsame).2 t ht
    obtain ⟨row, hrow, hrowU⟩ := row_of_upsertTracks hupsert (by rwa [hpathsEq]) hu
    refine ⟨row, (hwithout.tracks row).mpr ⟨hrow, ?_⟩, huT.trans hrowU⟩
    rintro existing - hgone hid
    apply hgone.1
    rw [← idsOf_same hsame, ← hid, hrowU.id]
    exact List.mem_map_of_mem hu
  · intro row hrow hpath hstays
    have hmem := mem_upsertTracks_of_ne hupsert (htracks ▸ hrow) (by rwa [hpathsEq])
    refine (hwithout.tracks row).mpr ⟨hmem, fun existing hexist hgone hid => ?_⟩
    grind [Library.eq_of_id]
  · intro r
    rw [hwithout.references, Library.references_upsertTracks hupsert, hreferences]

/-- A root that is written is in line. -/
theorem writeRoot_in_line {tracks rootExisting : List Track} (root : Path)
    (currentDevId : Option ℕ) (hexisting : ∀ existing ∈ rootExisting, existing ∈ w.lib.tracks)
    (hpaths : (tracks.map Track.filePath).Nodup) :
    Shown o disk calm
      (fun r w' => (r = .ok () → InLine disk tracks rootExisting w.lib w'.lib) ∧
        (calm → (tracks.map Track.id).Nodup → IdsFree w.lib tracks →
          Deletable disk (tracks.map Track.id) rootExisting w.lib → r = .ok ()))
      (writeRoot root tracks rootExisting currentDevId) w := by
  apply Prog.Meets.bind
  apply (tracksToUpsert_shown rootExisting tracks).mono
  rintro _ w₁ ⟨hlib, upserts, rfl, hsame⟩
  refine Shown.step fun _ => ?_
  obtain ⟨htracks, hreferences⟩ := exec_update_rows (o := o) (rootStr root) "online" ""
    currentDevId w₁
  rw [hlib] at htracks hreferences
  generalize (exec o (.updateMountState (rootStr root) "online" "" currentDevId) w₁).2 = w₂
    at htracks hreferences ⊢
  apply Prog.Meets.bind
  apply (upsertAll_shown upserts).mono
  rintro r w₃ ⟨hupsert, hupserted⟩
  cases r with
  | error e =>
    refine ⟨nofun, fun hcalm hids hfree _ => (hupserted hcalm ?_)⟩
    apply upsertTracks_ok
    · rwa [idsOf_same hsame]
    · rwa [paths_of_same hsame]
    · have hsameFree := hfree.same hsame
      grind [IdsFree, Library.refers]
  | ok done =>
    refine Shown.step fun hm => ?_
    apply Prog.Meets.ite
    · intro hcancelled
      simp only [exec, hm.goes_on, Bool.false_eq_true] at hcancelled
    · intro _
      apply (deleteMissing_shown (tracks.map Track.id) rootExisting).mono
      rintro r w₄ ⟨hwithout, hok⟩
      refine ⟨fun hr => InLine.of_writes hexisting hpaths hsame htracks hreferences (hupsert rfl)
        (hwithout hr), fun hcalm _ _ hdeletable => hok hcalm ?_⟩
      intro existing hexist hgone r hr
      have hreferences₃ := Library.references_upsertTracks (hupsert rfl)
      rw [show (exec o .isCancelled w₃).2.lib = w₃.lib from rfl, hreferences₃, hreferences] at hr
      exact hdeletable existing hexist hgone r hr

end

end MichiServer.Scanner
