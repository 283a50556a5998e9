import MichiServer.Interleave.Pool
import MichiServer.Queue.Routes
import MichiServer.Text.Str

/-!
# The links of a chain

Requests that add, update, delete and reorder the links of playback chains, statement by statement and
in any interleaving. A position is taken from a query of its own, set as an update says, or written row
by row by a reordering, and no statement but the last asks which chain a link is of.
-/

namespace MichiServer.Chains

open MichiServer.Interleave MichiServer.Queue MichiServer.Text

structure ChainLink where
  id : Uuid
  chainId : Uuid
  position : ℤ
  receiverId : String
  volume : ℤ
  muted : Bool
  delayMs : ℤ
deriving DecidableEq

structure ChainLinkCreate where
  receiverId : String
  volume : Option ℤ
  delayMs : Option ℤ
deriving DecidableEq

structure ChainLinkUpdate where
  volume : Option ℤ
  muted : Option Bool
  delayMs : Option ℤ
  position : Option ℤ
deriving DecidableEq

structure ChainTables where
  chains : List Uuid
  chainLinks : List ChainLink
deriving DecidableEq

def nextPosition (maxPos : ℤ) : ℤ := Int.bmod (maxPos + 1) (2 ^ 64)

namespace ChainTables

variable (db : ChainTables)

def linksOf (chainId : Uuid) : List ChainLink := db.chainLinks.filter fun l => l.chainId = chainId

def maxPosition (chainId : Uuid) : ℤ :=
  (((db.linksOf chainId).map ChainLink.position).max?).getD (-1)

def getChainLinks (chainId : Uuid) : List ChainLink :=
  (db.linksOf chainId).insertionSort fun a b => a.position ≤ b.position

def write (target : ChainLink → Prop) [DecidablePred target] (f : ChainLink → ChainLink) : ChainTables :=
  { db with chainLinks := db.chainLinks.map fun l => if target l then f l else l }

end ChainTables

def newLink (id chainId : Uuid) (input : ChainLinkCreate) (maxPos : ℤ) : ChainLink where
  id := id
  chainId := chainId
  position := nextPosition maxPos
  receiverId := input.receiverId
  volume := input.volume.getD 80
  muted := false
  delayMs := input.delayMs.getD 0

def ChainLinkUpdate.apply (input : ChainLinkUpdate) (l : ChainLink) : ChainLink :=
  { l with
    volume := input.volume.getD l.volume
    muted := input.muted.getD l.muted
    delayMs := input.delayMs.getD l.delayMs
    position := input.position.getD l.position }

def ChainLinkUpdate.isEmpty (input : ChainLinkUpdate) : Bool :=
  input.volume.isNone && input.muted.isNone && input.delayMs.isNone && input.position.isNone

/-! ## Requests -/

/-- What a request of the handlers does next. An `add` carries the id that is drawn for its link. -/
inductive LinkTask where
  | add (chainId id : Uuid) (body : ChainLinkCreate)
  | max (chainId id : Uuid) (body : ChainLinkCreate)
  | insert (chainId id : Uuid) (body : ChainLinkCreate) (maxPos : ℤ)
  | update (chainId linkId : Uuid) (body : ChainLinkUpdate)
  | delete (chainId linkId : Uuid)
  | reorder (chainId : Uuid) (linkIds : List Uuid) (done : ℕ)
deriving DecidableEq

inductive LinkAnswer where
  | link (l : ChainLink)
  | status (text : String)
deriving DecidableEq

inductive LinkCall where
  | addLink (chainId id : Uuid) (body : ChainLinkCreate)
  | updateLink (chainId linkId : Uuid) (body : ChainLinkUpdate)
  | deleteLink (chainId linkId : Uuid)
  | reorderLinks (chainId : Uuid) (linkIds : List Uuid)
deriving DecidableEq

def LinkCall.task : LinkCall → LinkTask
  | addLink chainId id body => .add chainId id body
  | updateLink chainId linkId body => .update chainId linkId body
  | deleteLink chainId linkId => .delete chainId linkId
  | reorderLinks chainId linkIds => .reorder chainId linkIds 0

namespace LinkTask

def chainId : LinkTask → Uuid
  | add c _ _ | max c _ _ | insert c _ _ _ | update c _ _ | delete c _ | reorder c _ _ => c

def written (db : ChainTables) (linkId : Uuid) (text : String) : Except ApiError LinkAnswer :=
  if db.chainLinks.any fun l => l.id = linkId then .ok (.status text)
  else .error (v1Error 404 "NOT_FOUND" s!"link not found: {linkId}")

/-- The next statement, which may fail: the task goes on, or is answered. -/
def exec (fault : Option String) (db : ChainTables) :
    LinkTask → (LinkTask ⊕ Except ApiError LinkAnswer) × ChainTables
  | add chainId id body =>
    if trim body.receiverId = "" then
      (.inr (.error (v1Error 400 "VALIDATION_ERROR" "receiver_id is required")), db)
    else
      match fault with
      | some text => (.inr (.error (databaseError text)), db)
      | none =>
        if chainId ∈ db.chains then (.inl (.max chainId id body), db)
        else (.inr (.error (v1Error 404 "NOT_FOUND" "Chain not found")), db)
  | max chainId id body =>
    -- a query that fails counts as one that finds no link
    (.inl (.insert chainId id body (if fault.isSome then -1 else db.maxPosition chainId)), db)
  | insert chainId id body maxPos =>
    match fault with
    | some text => (.inr (.error (databaseError text)), db)
    | none =>
      if db.chainLinks.any fun l => l.id = id then
        (.inr (.error (databaseError "UNIQUE constraint failed: chain_links.id")), db)
      else
        let l := newLink id chainId body maxPos
        (.inr (.ok (.link l)), { db with chainLinks := db.chainLinks ++ [l] })
  | update _ linkId body =>
    if body.isEmpty then (.inr (.error (v1Error 404 "NOT_FOUND" s!"link not found: {linkId}")), db)
    else
      match fault with
      | some text => (.inr (.error (databaseError text)), db)
      | none => (.inr (written db linkId "updated"), db.write (fun l => l.id = linkId) body.apply)
  | delete _ linkId =>
    match fault with
    | some text => (.inr (.error (databaseError text)), db)
    | none => (.inr (written db linkId "deleted"),
        { db with chainLinks := db.chainLinks.filter fun l => l.id ≠ linkId })
  | reorder chainId linkIds done =>
    match linkIds[done]? with
    | none => (.inr (.ok (.status "reordered")), db)
    | some linkId =>
      match fault with
      | some text => (.inr (.error (databaseError text)), db)
      | none => (.inl (.reorder chainId linkIds (done + 1)),
          db.write (fun l => l.id = linkId ∧ l.chainId = chainId)
            fun l => { l with position := done })

end LinkTask

def requests : Machine LinkCall LinkTask (Option String) Empty ChainTables where
  enter := LinkCall.task
  step t fault db :=
    let r := t.exec fault db
    ((r.1.elim (fun t => [t]) fun _ => []), r.2)
  tick := nofun

abbrev RequestPool := Pool LinkTask ChainTables

abbrev RequestMove := PoolMove LinkCall (Option String) Empty

/-! ## What the law asks -/

structure ChainTables.Sound (db : ChainTables) : Prop where
  ids_nodup : (db.chainLinks.map ChainLink.id).Nodup
  places : ∀ a ∈ db.chainLinks, ∀ b ∈ db.chainLinks, a.chainId = b.chainId →
    a.position = b.position → a.id = b.id

def Acts (p : RequestPool) (move : RequestMove) (t : LinkTask) (fault : Option String) : Prop :=
  ∃ i, move = .act i fault ∧ p.tasks[i]? = some t

/-- A statement leaves positions that are distinct in each chain, touches no link of another chain than
its request's, and ends a reordering that is accepted with the links in the order of the request. -/
structure Lawful (p : RequestPool) (move : RequestMove) : Prop where
  sound : (p.step requests move).world.Sound
  spares : ∀ t fault, Acts p move t fault → ∀ c ≠ t.chainId,
    (p.step requests move).world.linksOf c = p.world.linksOf c
  ordered : ∀ t fault, Acts p move t fault → ∀ c linkIds done, t = .reorder c linkIds done →
    ∀ answer, (t.exec fault p.world).1 = .inr (.ok answer) →
      ((p.step requests move).world.getChainLinks c).map ChainLink.id = linkIds

def ChainTables.Free (db : ChainTables) (c : Uuid) (position : ℤ) (linkId : Uuid) : Prop :=
  ∀ l ∈ db.chainLinks, l.chainId = c → l.position = position → l.id = linkId

def ChainTables.OfChain (db : ChainTables) (c linkId : Uuid) : Prop :=
  ∀ l ∈ db.chainLinks, l.id = linkId → l.chainId = c

/-- What is asked of a statement: the query for the maximum succeeds and finds less than `i64::MAX`; an
update or a reordering writes a position that no other link of the chain has, an update or a deletion to
a link of the chain its request names; and a reordering that begins names each link of the chain once. -/
def Fitting (db : ChainTables) (fault : Option String) : LinkTask → Prop
  | .max c _ _ => fault = none ∧ -2 ^ 63 ≤ db.maxPosition c ∧ db.maxPosition c < 2 ^ 63 - 1
  | .update c linkId body =>
    db.OfChain c linkId ∧ ∀ position ∈ body.position, db.Free c position linkId
  | .delete c linkId => db.OfChain c linkId
  | .reorder c linkIds done => (∀ linkId ∈ linkIds[done]?, db.Free c done linkId) ∧
      (done = 0 → linkIds.Nodup ∧ ∀ id, id ∈ linkIds ↔ id ∈ (db.linksOf c).map ChainLink.id)
  | _ => True

/-- An addition that has queried the maximum, and a reordering that has written a position. -/
def LinkTask.UnderWay : LinkTask → Prop
  | insert _ _ _ _ | reorder _ _ (_ + 1) => True
  | _ => False

/-- Each statement is fitting, and while a request on its chain is under way it is the next of that. -/
def Orderly (p : RequestPool) (move : RequestMove) : Prop :=
  ∀ t fault, Acts p move t fault → Fitting p.world fault t ∧
    ∀ u ∈ p.tasks, u.UnderWay → t.chainId = u.chainId → t = u

/-! ## One statement -/

namespace ChainTables

variable {db : ChainTables} {target : ChainLink → Prop} [DecidablePred target]
  {f : ChainLink → ChainLink}
  {linkId id c : Uuid} {linkIds : List Uuid} {done : ℕ}

/-- What a write may change of the links it finds: one link, to a position that is free. -/
structure Moves (db : ChainTables) (linkId : Uuid) (target : ChainLink → Prop)
    (f : ChainLink → ChainLink) : Prop where
  one : ∀ l, target l → l.id = linkId
  keeps : ∀ l, (f l).id = l.id ∧ (f l).chainId = l.chainId
  free : ∀ l ∈ db.chainLinks, target l → (f l).position = l.position ∨
    db.Free l.chainId (f l).position linkId

theorem Moves.id_eq (h : db.Moves linkId target f) (l : ChainLink) :
    (if target l then f l else l).id = l.id ∧ (if target l then f l else l).chainId = l.chainId := by
  split
  · exact h.keeps l
  · exact ⟨rfl, rfl⟩

theorem Sound.write (h : db.Sound) (hmoves : db.Moves linkId target f) : (db.write target f).Sound where
  ids_nodup := by
    have hids : (db.write target f).chainLinks.map ChainLink.id = db.chainLinks.map ChainLink.id := by
      simp only [ChainTables.write, List.map_map]
      exact List.map_congr_left fun l _ => (hmoves.id_eq l).1
    rw [hids]
    exact h.ids_nodup
  places := by
    simp only [ChainTables.write, List.mem_map]
    rintro _ ⟨a, ha, rfl⟩ _ ⟨b, hb, rfl⟩ hchain hposition
    rw [(hmoves.id_eq a).1, (hmoves.id_eq b).1]
    rw [(hmoves.id_eq a).2, (hmoves.id_eq b).2] at hchain
    have hmoved : ∀ x ∈ db.chainLinks, target x → ∀ y ∈ db.chainLinks, x.chainId = y.chainId →
        (f x).position = y.position → x.id = y.id := by
      intro x hx htarget y hy hxy hpos
      rcases hmoves.free x hx htarget with hsame | hfree
      · exact h.places x hx y hy hxy (hsame ▸ hpos)
      · exact (hmoves.one x htarget).trans (hfree y hy hxy.symm hpos.symm).symm
    by_cases hta : target a <;> by_cases htb : target b
    · exact (hmoves.one a hta).trans (hmoves.one b htb).symm
    · grind
    · grind
    · rw [if_neg hta, if_neg htb] at hposition
      exact h.places a ha b hb hchain hposition

theorem Sound.insert {l : ChainLink} (h : db.Sound) (hid : l.id ∉ db.chainLinks.map ChainLink.id)
    (hfree : db.Free l.chainId l.position l.id) :
    ({ db with chainLinks := db.chainLinks ++ [l] } : ChainTables).Sound where
  ids_nodup := by
    rw [List.map_append]
    exact h.ids_nodup.append (List.nodup_singleton _) (by simpa using hid)
  places := by
    simp only [List.mem_append, List.mem_singleton]
    rintro a (ha | rfl) b (hb | rfl) hchain hposition
    · exact h.places a ha b hb hchain hposition
    · exact hfree a ha hchain hposition
    · exact (hfree b hb hchain.symm hposition.symm).symm
    · rfl

theorem Sound.filter {p : ChainLink → Bool} (h : db.Sound) :
    ({ db with chainLinks := db.chainLinks.filter p } : ChainTables).Sound where
  ids_nodup := h.ids_nodup.sublist (List.filter_sublist.map _)
  places a ha b hb := h.places a (List.mem_of_mem_filter ha) b (List.mem_of_mem_filter hb)

theorem Free.of_links {db' : ChainTables} {position : ℤ} (h : db.Free c position id)
    (hlinks : db'.linksOf c = db.linksOf c) : db'.Free c position id := by
  intro l hl hchain
  have hmem : l ∈ db.linksOf c := hlinks ▸ List.mem_filter.mpr ⟨hl, decide_eq_true hchain⟩
  exact h l (List.mem_of_mem_filter hmem) hchain

/-- The position after the maximum is free. -/
theorem free_next (hlow : -2 ^ 63 ≤ db.maxPosition c) (hhigh : db.maxPosition c < 2 ^ 63 - 1)
    (id : Uuid) : db.Free c (nextPosition (db.maxPosition c)) id := by
  intro l hl hchain hposition
  have hnext : nextPosition (db.maxPosition c) = db.maxPosition c + 1 :=
    Int.bmod_eq_of_le (by omega) (by omega)
  have hmem : l.position ∈ (db.linksOf c).map ChainLink.position :=
    List.mem_map_of_mem (List.mem_filter.mpr ⟨hl, decide_eq_true hchain⟩)
  have hle : l.position ≤ db.maxPosition c := by
    unfold maxPosition
    cases hmax : ((db.linksOf c).map ChainLink.position).max? with
    | none =>
      rw [List.max?_eq_none_iff.mp hmax] at hmem
      cases hmem
    | some m => exact (List.max?_eq_some_iff.mp hmax).2 _ hmem
  omega

theorem linksOf_write (hkeeps : ∀ l, (f l).chainId = l.chainId) {c' : Uuid} (hc : c' ≠ c)
    (htarget : ∀ l ∈ db.chainLinks, target l → l.chainId = c) :
    (db.write target f).linksOf c' = db.linksOf c' := by
  simp only [linksOf, ChainTables.write]
  generalize db.chainLinks = links at htarget
  induction links with
  | nil => rfl
  | cons l links ih =>
    grind

/-! ## A reordering under way -/

/-- The links of the chain are those that are named, the first of them in their places. -/
structure Placed (db : ChainTables) (c : Uuid) (linkIds : List Uuid) (done : ℕ) : Prop where
  nodup : linkIds.Nodup
  mem_iff : ∀ id, id ∈ linkIds ↔ id ∈ (db.linksOf c).map ChainLink.id
  placed : ∀ l ∈ db.linksOf c, ∀ j < done, linkIds[j]? = some l.id → l.position = j

theorem Placed.next (h : db.Placed c linkIds done) (hid : linkIds[done]? = some linkId) :
    (db.write (fun l => l.id = linkId ∧ l.chainId = c) fun l => { l with position := done }).Placed c
      linkIds (done + 1) := by
  have hlinks : (db.write (fun l => l.id = linkId ∧ l.chainId = c) fun l =>
      { l with position := done }).linksOf c =
        (db.linksOf c).map fun l => if l.id = linkId then { l with position := done } else l := by
    simp only [linksOf, ChainTables.write, List.filter_map]
    have hchain : ((fun l : ChainLink => decide (l.chainId = c)) ∘ fun l =>
        if l.id = linkId ∧ l.chainId = c then { l with position := (done : ℤ) } else l) =
          fun l => decide (l.chainId = c) := by
      funext l
      simp only [Function.comp_apply]
      split <;> rfl
    rw [hchain]
    exact List.map_congr_left fun l hl => by simp [of_decide_eq_true (List.mem_filter.mp hl).2]
  refine ⟨h.nodup, fun id => ?_, fun l hl j hj hat => ?_⟩
  · rw [h.mem_iff, hlinks, List.map_map]
    refine iff_of_eq (congrArg _ (List.map_congr_left fun l _ => ?_))
    simp only [Function.comp_apply]
    split <;> rfl
  · rw [hlinks] at hl
    obtain ⟨old, hold, rfl⟩ := List.mem_map.mp hl
    split at hat
    next heq =>
      have hsame : j = done := (List.getElem?_inj (List.getElem?_eq_some_iff.mp hat).1 h.nodup).mp
        (by rw [hat, hid]; exact congrArg some heq)
      rw [if_pos heq, hsame]
    next hne =>
      have hlt : j < done := by
        refine lt_of_le_of_ne (Nat.lt_succ_iff.mp hj) fun heq => hne ?_
        rw [heq, hid] at hat
        exact (Option.some.inj hat).symm
      rw [if_neg hne]
      exact h.placed old hold j hlt hat

theorem Placed.mono {n : ℕ} (h : db.Placed c linkIds done) (hle : n ≤ done) :
    db.Placed c linkIds n :=
  ⟨h.nodup, h.mem_iff, fun l hl j hj => h.placed l hl j (hj.trans_le hle)⟩

theorem Placed.of_links {db' : ChainTables} (h : db.Placed c linkIds done)
    (hlinks : db'.linksOf c = db.linksOf c) : db'.Placed c linkIds done :=
  ⟨h.nodup, hlinks ▸ h.mem_iff, hlinks ▸ h.placed⟩

theorem Placed.listed (h : db.Placed c linkIds done) (hsound : db.Sound)
    (hdone : linkIds[done]? = none) :
    (db.getChainLinks c).map ChainLink.id = linkIds := by
  have hmem : ∀ l, l ∈ db.getChainLinks c ↔ l ∈ db.linksOf c := fun l => List.mem_insertionSort _
  have hperm : ((db.getChainLinks c).map ChainLink.id).Perm linkIds := by
    refine (List.perm_ext_iff_of_nodup ?_ h.nodup).mpr fun id => ?_
    · refine (((List.perm_insertionSort _ _).map ChainLink.id).nodup_iff).mpr ?_
      exact hsound.ids_nodup.sublist (List.filter_sublist.map _)
    · rw [h.mem_iff, List.mem_map, List.mem_map]
      simp only [hmem]
  -- both lists go up in the places that the request gives
  have hanti : ∀ a b, a ∈ (db.getChainLinks c).map ChainLink.id → b ∈ linkIds →
      linkIds.idxOf a ≤ linkIds.idxOf b → linkIds.idxOf b ≤ linkIds.idxOf a → a = b :=
    fun a b ha _ hab hba => (List.idxOf_inj (hperm.mem_iff.mp ha)).mp (le_antisymm hab hba)
  refine hperm.eq_of_pairwise hanti ?_ ?_
  · refine List.pairwise_map.mpr (List.Pairwise.imp_of_mem ?_ (List.pairwise_insertionSort _ _))
    intro a b ha hb hle
    have hplace : ∀ l ∈ db.getChainLinks c, l.position = linkIds.idxOf l.id := by
      intro l hl
      have hid : l.id ∈ linkIds := (h.mem_iff _).mpr (List.mem_map_of_mem ((hmem l).mp hl))
      have hlt := List.idxOf_lt_length_iff.mpr hid
      refine h.placed l ((hmem l).mp hl) _ (lt_of_lt_of_le hlt (List.getElem?_eq_none_iff.mp hdone)) ?_
      rw [List.getElem?_eq_getElem hlt, List.getElem_idxOf]
    rw [hplace a ha, hplace b hb] at hle
    exact Int.ofNat_le.mp hle
  · rw [List.pairwise_iff_getElem]
    intro i j hi hj hij
    rw [h.nodup.idxOf_getElem i hi, h.nodup.idxOf_getElem j hj]
    exact hij.le

end ChainTables

/-! ## Every run -/

section

variable {db : ChainTables} {t : LinkTask} {fault : Option String} {p : RequestPool} {move : RequestMove}

/-- What is known of a request that is under way. -/
structure LinkTask.Good (t : LinkTask) (db : ChainTables) : Prop where
  free : ∀ c id body maxPos, t = .insert c id body maxPos → db.Free c (nextPosition maxPos) id
  placed : ∀ c linkIds done, t = .reorder c linkIds (done + 1) → db.Placed c linkIds (done + 1)

theorem LinkTask.good_of_not_underWay (h : ¬ t.UnderWay) : t.Good db where
  free _ _ _ _ heq := absurd (heq ▸ trivial) h
  placed _ _ _ heq := absurd (heq ▸ trivial) h

theorem exec_lawful (h : db.Sound) (hgood : t.Good db) (hfit : Fitting db fault t) : (t.exec fault db).2.Sound ∧
    ∀ c ≠ t.chainId, (t.exec fault db).2.linksOf c = db.linksOf c := by
  have hsame : db.Sound ∧ ∀ c ≠ t.chainId, db.linksOf c = db.linksOf c := ⟨h, fun _ _ => rfl⟩
  cases t with
  | add chainId id body =>
    simp only [LinkTask.exec]
    repeat' split
    all_goals exact hsame
  | max chainId id body => exact hsame
  | insert chainId id body maxPos =>
    simp only [LinkTask.exec]
    split
    · exact hsame
    · split
      next => exact hsame
      next hid =>
        refine ⟨h.insert (by simpa [newLink] using hid) (hgood.free _ _ _ _ rfl), fun c hc => ?_⟩
        have hother : ¬ chainId = c := Ne.symm hc
        simp [ChainTables.linksOf, newLink, hother]
  | update chainId linkId body =>
    simp only [LinkTask.exec]
    split
    · exact hsame
    · split
      · exact hsame
      · refine ⟨h.write ⟨fun l hl => hl, fun l => ⟨rfl, rfl⟩, fun l hl hid => ?_⟩, fun c hc =>
          ChainTables.linksOf_write (f := body.apply) (fun l => rfl) hc hfit.1⟩
        simp only [ChainLinkUpdate.apply]
        cases hposition : body.position with
        | none => exact .inl rfl
        | some position => exact .inr (hfit.1 l hl hid ▸ hfit.2 position hposition)
  | delete chainId linkId =>
    simp only [LinkTask.exec]
    split
    · exact hsame
    · refine ⟨h.filter, fun c hc => ?_⟩
      simp only [ChainTables.linksOf, List.filter_filter]
      refine List.filter_congr fun l hl => ?_
      have hchain : l.chainId = c → l.id ≠ linkId := fun heq hid => hc (heq ▸ hfit l hl hid)
      simpa using hchain
  | reorder chainId linkIds done =>
    simp only [LinkTask.exec]
    split
    · exact hsame
    next linkId hid =>
      split
      · exact hsame
      · refine ⟨h.write ⟨fun l hl => hl.1, fun l => ⟨rfl, rfl⟩, fun l hl hat => .inr ?_⟩, fun c hc => ?_⟩
        · rw [hat.2]
          exact hfit.1 linkId hid
        · exact ChainTables.linksOf_write (f := fun l => { l with position := done }) (fun l => rfl) hc
            fun l _ hat => hat.2

theorem placed_of_fitting {c : Uuid} {linkIds : List Uuid} {done : ℕ}
    (hfit : Fitting db fault (.reorder c linkIds done))
    (hgood : (LinkTask.reorder c linkIds done).Good db) : db.Placed c linkIds done := by
  cases done with
  | zero => exact ⟨(hfit.2 rfl).1, (hfit.2 rfl).2, fun _ _ _ h => absurd h (Nat.not_lt_zero _)⟩
  | succ done => exact hgood.placed c linkIds done rfl

theorem exec_good (hfit : Fitting db fault t) (hgood : t.Good db) {t' : LinkTask}
    (ht' : (t.exec fault db).1 = .inl t') : t'.Good (t.exec fault db).2 := by
  cases t with
  | add chainId id body =>
    simp only [LinkTask.exec] at ht' ⊢
    repeat' split at ht'
    all_goals cases ht'
    exact LinkTask.good_of_not_underWay not_false
  | max chainId id body =>
    obtain ⟨rfl, hlow, hhigh⟩ := hfit
    cases ht'
    refine ⟨?_, fun c linkIds done heq => by cases heq⟩
    rintro _ _ _ _ ⟨⟩
    exact ChainTables.free_next hlow hhigh id
  | reorder chainId linkIds done =>
    rw [LinkTask.exec] at ht' ⊢
    split at ht' <;> try cases ht'
    next linkId hid =>
      split at ht' <;> cases ht'
      refine ⟨fun c id body maxPos heq => (by cases heq), ?_⟩
      rintro c ids done' heq
      obtain ⟨rfl, rfl, rfl⟩ : chainId = c ∧ linkIds = ids ∧ done = done' := by simpa using heq
      exact (placed_of_fitting hfit hgood).next hid
  | insert | update | delete =>
    simp only [LinkTask.exec] at ht'
    repeat' split at ht'
    all_goals cases ht'

/-- The statement of a request that is under way leaves what is known of the request. -/
theorem exec_keeps (hgood : t.Good db) : t.Good (t.exec fault db).2 := by
  cases t with
  | insert chainId id body maxPos =>
    refine ⟨?_, fun c linkIds done heq => by cases heq⟩
    rintro _ _ _ _ ⟨⟩
    have hfree := hgood.free _ _ _ _ rfl
    simp only [LinkTask.exec]
    split
    · exact hfree
    · split
      · exact hfree
      · intro l hl hchain hposition
        rcases List.mem_append.mp hl with hold | hnew
        · exact hfree l hold hchain hposition
        · rw [List.mem_singleton.mp hnew]
          rfl
  | reorder chainId linkIds done =>
    refine ⟨fun c id body maxPos heq => (by cases heq), fun c ids done' heq => ?_⟩
    obtain ⟨rfl, rfl, rfl⟩ : chainId = c ∧ linkIds = ids ∧ done = done' + 1 := by simpa using heq
    have hplaced := hgood.placed _ _ _ rfl
    simp only [LinkTask.exec]
    split
    · exact hplaced
    next linkId hid =>
      split
      · exact hplaced
      · exact (hplaced.next hid).mono (Nat.le_succ _)
  | add | max | update | delete => exact LinkTask.good_of_not_underWay not_false

def invariant : Invariant LinkTask ChainTables where
  Inv := ChainTables.Sound
  Good := LinkTask.Good
  Apart _ _ := True
  apart_symm _ _ _ := trivial

theorem preserved : invariant.Preserved requests Orderly where
  enter c _ _ := by
    refine ⟨?_, fun _ => trivial⟩
    cases c <;> exact LinkTask.good_of_not_underWay not_false
  self p i fault t ht hallowed hinv hgood := by
    have hfit := (hallowed t fault ⟨i, rfl, ht⟩).1
    refine ⟨(exec_lawful hinv hgood hfit).1, fun t' ht' => ?_, ?_⟩
    · simp only [requests] at ht' ⊢
      cases hexec : (t.exec fault p.world).1 with
      | inl next =>
        obtain rfl : t' = next := by simpa [hexec] using ht'
        exact exec_good hfit hgood hexec
      | inr answer => simp [hexec] at ht'
    · simp only [requests]
      cases (t.exec fault p.world).1 <;> simp
  other p i fault t u ht hu hallowed hinv hgood hgood' _ := by
    obtain ⟨hfit, halone⟩ := hallowed t fault ⟨i, rfl, ht⟩
    refine ⟨?_, fun _ _ => trivial⟩
    by_cases hunder : u.UnderWay
    · by_cases hchain : t.chainId = u.chainId
      · obtain rfl := halone u hu hunder hchain
        exact exec_keeps hgood'
      · -- the statement leaves the links of the other chain
        have hlinks := (exec_lawful hinv hgood hfit).2 u.chainId (Ne.symm hchain)
        refine ⟨?_, ?_⟩
        · rintro c id body maxPos rfl
          exact (hgood'.free c id body maxPos rfl).of_links hlinks
        · rintro c linkIds done rfl
          exact (hgood'.placed c linkIds done rfl).of_links hlinks
    · exact LinkTask.good_of_not_underWay hunder
  tick t := nomatch t

theorem step_world_of_acts (hacts : Acts p move t fault) :
    (p.step requests move).world = (t.exec fault p.world).2 := by
  obtain ⟨i, rfl, ht⟩ := hacts
  exact Pool.step_world ht

theorem lawful_of_orderly (h : invariant.Holds p) (hallowed : Orderly p move) : Lawful p move where
  sound := (preserved.step h hallowed).1
  spares t fault hacts := by
    rw [step_world_of_acts hacts]
    obtain ⟨i, -, ht⟩ := id hacts
    exact (exec_lawful h.1 (h.2.1 t (List.mem_of_getElem? ht)) (hallowed t fault hacts).1).2
  ordered t fault hacts c linkIds done heq answer hanswer := by
    rw [step_world_of_acts hacts]
    obtain ⟨i, hmove, ht⟩ := hacts
    subst heq
    have hplaced := placed_of_fitting (hallowed _ fault ⟨i, hmove, ht⟩).1
      (h.2.1 _ (List.mem_of_getElem? ht))
    simp only [LinkTask.exec] at hanswer ⊢
    split at hanswer
    next hdone =>
      exact hplaced.listed h.1 hdone
    next => split at hanswer <;> cases hanswer

/-- **The order of a chain.** From tables whose chains are in order, in every run of requests of which
each statement is fitting and comes between no two statements of an addition or a reordering on its
chain, all statements are lawful. -/
theorem links_lawful {db : ChainTables} (hdb : db.Sound) {moves : List RequestMove}
    (hmoves : Pool.Obeys requests Orderly ⟨[], db⟩ moves) : Pool.Obeys requests Lawful ⟨[], db⟩ moves :=
  preserved.obeys (fun _ _ => lawful_of_orderly) ⟨hdb, nofun, List.Pairwise.nil⟩ hmoves

end

/-- The first link of a chain. -/
theorem links_lawful_first : Pool.Obeys requests Lawful ⟨[], ⟨[1], []⟩⟩
    [.arrive (.addLink 1 7 ⟨"kitchen", none, none⟩), .act 0 none, .act 0 none, .act 0 none] := by
  have hstep {t' : LinkTask} {db : ChainTables} (hfit : Fitting db none t') :
      Orderly ⟨[t'], db⟩ (.act 0 none) := by
    rintro t fault ⟨i, hmove, ht⟩
    cases hmove
    cases ht
    exact ⟨hfit, fun u hu _ _ => (List.mem_singleton.mp hu).symm⟩
  have hempty : (⟨[1], []⟩ : ChainTables).Sound := ⟨List.nodup_nil, fun a ha => nomatch ha⟩
  refine links_lawful hempty ⟨?_, hstep trivial, hstep ⟨rfl, by decide, by decide⟩, hstep trivial, trivial⟩
  rintro t fault ⟨i, hmove, -⟩
  cases hmove

/-- A request for one chain changes the link of another. -/
theorem links_unlawful : ¬ ∀ (db : ChainTables) (moves : List RequestMove), db.Sound →
    Pool.Obeys requests Lawful ⟨[], db⟩ moves := by
  intro h
  have hrun := h ⟨[1, 2], [⟨7, 1, 0, "kitchen", 80, false, 0⟩]⟩
    [.arrive (.updateLink 2 7 ⟨none, none, none, some 5⟩), .act 0 none]
    ⟨List.nodup_singleton _, by simp⟩
  have hspared := hrun.2.1.spares _ _ ⟨0, rfl, rfl⟩ 1 (by decide)
  revert hspared
  decide

end MichiServer.Chains
