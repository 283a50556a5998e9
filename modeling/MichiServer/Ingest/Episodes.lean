import Mathlib.Tactic.Tauto
import MichiServer.Text.Lines
import MichiServer.Text.Search

/-!
# The episodes of a feed

`parse_rss_episodes` looks for every `<item>` of a feed and reads its fields from there on: each by the
first occurrence of its tag, wherever in the rest of the feed that is. An episode has a title, the
address of its enclosure, a date and a length; a GUID is not read.

The model keeps with each episode the text that it was read from, which begins with the opening tag, and
with each field what follows it, so that it can be said where a field was found. `episodes_stay_iff` says
of which feeds every episode stays in its item.
-/

namespace MichiServer.Ingest

open Text

structure PodcastEpisode where
  title : String
  audioUrl : String
  pubDate : String
  durationSecs : Option ℕ

def openTag (tag : String) : List Char := '<' :: tag.toList ++ ['>']

def closeTag (tag : String) : List Char := '<' :: '/' :: tag.toList ++ ['>']

/-- The search of `extract_tag`: the text, and what follows the closing tag. -/
def findTag (body : List Char) (tag : String) : Option (List Char × List Char) := do
  let (_, rest) ← splitAtFirst (openTag tag) body
  splitAtFirst (closeTag tag) rest

def extractTag (body : List Char) (tag : String) : Option String :=
  (findTag body tag).map fun r => String.ofList r.1

/-- The search of `extract_attr`: the value, and what follows its closing quote. -/
def findAttr (body : List Char) (tag attr : String) : Option (List Char × List Char) := do
  let search := '<' :: tag.toList ++ [' ']
  let (_, rest) ← splitAtFirst search body
  let fragment := search ++ rest
  let (_, rest) ← splitAtFirst (attr.toList ++ ['=', '"']) fragment
  splitAtFirst ['"'] rest

def extractAttr (body : List Char) (tag attr : String) : Option String :=
  (findAttr body tag attr).map fun r => String.ofList r.1

def episode (item : List Char) : Option PodcastEpisode :=
  let title := (extractTag item "title").getD ""
  let url := (extractAttr item "enclosure" "url").getD ""
  let pubDate := (extractTag item "pubDate").getD ""
  let duration := (extractTag item "duration").getD ""
  if title ≠ "" ∧ url ≠ "" then
    some {
      title
      audioUrl := url
      pubDate
      durationSecs := parseUint 64 duration.toList }
  else none

/-- The loop of `parse_rss_episodes`: it goes on behind `<item`, until there are a hundred episodes. The
first argument is at least the length of the rest. -/
def parseLoop : ℕ → List (List Char × PodcastEpisode) → List Char → List (List Char × PodcastEpisode)
  | 0, episodes, _ => episodes
  | fuel + 1, episodes, rest =>
    match splitAtFirst (openTag "item") rest with
    | none => episodes
    | some (_, after) =>
      let item := openTag "item" ++ after
      let episodes :=
        match episode item with
        | some e => episodes ++ [(item, e)]
        | none => episodes
      if episodes.length ≥ 100 then episodes else parseLoop fuel episodes ('>' :: after)

def tracedEpisodes (body : String) : List (List Char × PodcastEpisode) :=
  parseLoop body.toList.length [] body.toList

def parseRssEpisodes (body : String) : List PodcastEpisode :=
  (tracedEpisodes body).map Prod.snd

example : (parseRssEpisodes
    "<item><title>A</title><enclosure url=\"u\"/></item><item><title>B</title></item>").map
      (fun e => (e.title, e.audioUrl)) = [("A", "u")] := by
  decide

/-! ## The openings -/

def openings : List Char → List (List Char)
  | [] => []
  | c :: rest => if openTag "item" <+: c :: rest then (c :: rest) :: openings rest else openings rest

theorem openings_of_none {l : List Char} (h : splitAtFirst (openTag "item") l = none) :
    openings l = [] := by
  rw [splitAtFirst_eq_none_iff] at h
  induction l with
  | nil => rfl
  | cons c rest ih =>
    have hfront : ¬ openTag "item" <+: c :: rest := fun hp => h hp.isInfix
    rw [openings, if_neg hfront]
    exact ih fun hin => h (hin.trans (List.infix_cons List.infix_rfl))

/-- The first opening of a list, and those behind it. -/
theorem openings_of_some {l before after : List Char}
    (h : splitAtFirst (openTag "item") l = some (before, after)) :
    openings l = (openTag "item" ++ after) :: openings ('>' :: after) := by
  induction l generalizing before with
  | nil => simp [splitAtFirst, openTag] at h
  | cons c rest ih =>
    rw [splitAtFirst] at h
    split at h
    · rename_i hfront
      have hfront := List.isPrefixOf_iff_prefix.mp hfront
      obtain ⟨rfl, rfl⟩ : [] = before ∧ (c :: rest).drop (openTag "item").length = after := by
        simpa using h
      obtain ⟨t, ht⟩ := hfront
      have hdrop : (c :: rest).drop (openTag "item").length = t := by rw [← ht, List.drop_left]
      obtain ⟨rfl, rfl⟩ : '<' = c ∧ "item".toList ++ '>' :: t = rest := by simpa [openTag] using ht
      rw [hdrop, openings, if_pos ⟨t, ht⟩]
      simp [openings, openTag]
    · rename_i hfront
      obtain ⟨⟨before', after'⟩, hrest, heq⟩ := Option.map_eq_some_iff.mp h
      grind [openings]

/-- An opening with the episode that is read from it, if there is one. -/
def reading (item : List Char) : Option (List Char × PodcastEpisode) := (episode item).map (item, ·)

/-- With enough fuel the loop reads every opening, up to a hundred episodes. -/
theorem parseLoop_eq {fuel : ℕ} {episodes : List (List Char × PodcastEpisode)} {rest : List Char}
    (hfuel : rest.length ≤ fuel) (hcount : episodes.length < 100) :
    parseLoop fuel episodes rest = (episodes ++ (openings rest).filterMap reading).take 100 := by
  induction fuel generalizing episodes rest with
  | zero =>
    obtain rfl := List.length_eq_zero_iff.mp (Nat.le_zero.mp hfuel)
    simp [parseLoop, openings, List.take_of_length_le hcount.le]
  | succ fuel ih =>
    rw [parseLoop]
    cases hfound : splitAtFirst (openTag "item") rest with
    | none => simp [openings_of_none hfound, List.take_of_length_le hcount.le]
    | some r =>
      obtain ⟨before, after⟩ := r
      have hshorter : ('>' :: after).length ≤ fuel := by
        have hlength := congrArg List.length (eq_of_splitAtFirst hfound)
        grind [openTag]
      have hreading : reading (openTag "item" ++ after) =
          (episode (openTag "item" ++ after)).map (openTag "item" ++ after, ·) := rfl
      rw [openings_of_some hfound, List.filterMap_cons, hreading]
      cases hepisode : episode (openTag "item" ++ after) with
      | none =>
        grind
      | some e =>
        simp only [hepisode, Option.map_some]
        rw [List.append_cons episodes _ (List.filterMap reading _)]
        split
        · rename_i hfull
          rw [List.take_append_of_le_length hfull, List.take_of_length_le]
          simp only [List.length_append, List.length_singleton]
          omega
        · rename_i hfull
          exact ih hshorter (Nat.not_le.mp hfull)

/-! ## Items -/

/-- The text begins with an element: an opening tag and the text up to the first closing tag, with no
other opening in between. -/
structure IsElement (item element after : List Char) : Prop where
  split : item = element ++ (closeTag "item" ++ after)
  opened : openTag "item" <+: element
  not_nested : ¬ openTag "item" <:+: element.tail
  not_closed : ¬ closeTag "item" <:+: element

/-- What follows the fields of an episode that was read from here still holds the end of its element:
the title, the enclosure and the date were all taken from inside it. -/
def StaysInItem (item : List Char) : Prop :=
  ∃ element after, IsElement item element after ∧
    (∀ r ∈ findTag item "title", closeTag "item" ++ after <:+ r.2) ∧
    (∀ r ∈ findAttr item "enclosure" "url", closeTag "item" ++ after <:+ r.2) ∧
    ∀ r ∈ findTag item "pubDate", closeTag "item" ++ after <:+ r.2

/-- The patterns of a tag with its text, and those of the address of an enclosure. -/
def tagPatterns (tag : String) : List (List Char) := [openTag tag, closeTag tag]

def urlPatterns : List (List Char) := ["<enclosure ".toList, "url=\"".toList, ['"']]

theorem findTag_eq (body : List Char) (tag : String) : findTag body tag = seek (tagPatterns tag) body := by
  rw [findTag, tagPatterns, seek_cons (by simp)]
  rfl

theorem findAttr_eq (body : List Char) :
    findAttr body "enclosure" "url" = seek urlPatterns body := by
  rw [findAttr, urlPatterns, seek_cons (by simp)]
  have hskip : ∀ rest : List Char, splitAtFirst "url=\"".toList ("<enclosure ".toList ++ rest) =
      (splitAtFirst "url=\"".toList rest).map fun r => ("<enclosure ".toList ++ r.1, r.2) := by
    intro rest
    simp [splitAtFirst, Function.comp_def]
  have hquote : [['"']] ≠ ([] : List (List Char)) := List.cons_ne_nil _ _
  simp only [seek_cons hquote]
  refine Option.bind_congr fun r _ => ?_
  have hname : splitAtFirst ("url".toList ++ ['=', '"']) ('<' :: "enclosure".toList ++ [' '] ++ r.2) =
      (splitAtFirst "url=\"".toList r.2).map fun r => ("<enclosure ".toList ++ r.1, r.2) := hskip r.2
  rw [hname]
  cases splitAtFirst "url=\"".toList r.2 <;> rfl

/-- An episode is read when there are a title and an address that are not empty. -/
def Yields (item : List Char) : Prop :=
  (∃ r ∈ findTag item "title", r.1 ≠ []) ∧ ∃ r ∈ findAttr item "enclosure" "url", r.1 ≠ []

instance (item : List Char) : Decidable (Yields item) := inferInstanceAs (Decidable (_ ∧ _))

theorem getD_ne_empty_iff {found : Option (List Char × List Char)} :
    (found.map fun r => String.ofList r.1).getD "" ≠ "" ↔ ∃ r ∈ found, r.1 ≠ [] := by
  cases found <;> simp

theorem episode_isSome_iff (item : List Char) : (episode item).isSome = true ↔ Yields item := by
  have hyields : Yields item ↔ (extractTag item "title").getD "" ≠ "" ∧
      (extractAttr item "enclosure" "url").getD "" ≠ "" :=
    and_congr getD_ne_empty_iff.symm getD_ne_empty_iff.symm
  grind [episode, extractTag, extractAttr]

def readItems (body : String) : List (List Char) :=
  ((openings body.toList).filter fun item => Yields item).take 100

theorem traced_items (body : String) : (tracedEpisodes body).map Prod.fst = readItems body := by
  have hreading : ∀ l : List (List Char),
      (l.filterMap reading).map Prod.fst = l.filter fun item => Yields item := by
    intro l
    induction l with
    | nil => rfl
    | cons item rest ih =>
      grind [episode_isSome_iff, reading, episode, Yields]
  rw [tracedEpisodes, parseLoop_eq (Nat.le_refl _) (by decide), List.nil_append, List.map_take, hreading]
  rfl

/-- In its element, an opening finds a title and an address, and a date unless there is none anywhere
behind it. -/
def OwnItem (item : List Char) : Prop :=
  ∃ element after, IsElement item element after ∧ HoldsInTurn (tagPatterns "title") element ∧
    HoldsInTurn urlPatterns element ∧
    (HoldsInTurn (tagPatterns "pubDate") element ∨ ¬ HoldsInTurn (tagPatterns "pubDate") item)

theorem staysInItem_iff {item : List Char} (h : Yields item) : StaysInItem item ↔ OwnItem item := by
  have hkinds : tagPatterns "title" ≠ [] ∧ urlPatterns ≠ [] ∧ tagPatterns "pubDate" ≠ [] := by
    simp [tagPatterns, urlPatterns]
  obtain ⟨htitle, hurl, hdate⟩ := hkinds
  obtain ⟨⟨t, ht, -⟩, u, hu, -⟩ := h
  rw [findTag_eq] at ht
  rw [findAttr_eq] at hu
  have hfound : HoldsInTurn (tagPatterns "title") item := (exists_seek_iff htitle).mp ⟨t, ht⟩
  have hfound' : HoldsInTurn urlPatterns item := (exists_seek_iff hurl).mp ⟨u, hu⟩
  refine exists_congr fun element => exists_congr fun after => and_congr_right fun helement => ?_
  have hsplit := helement.split
  grind [findTag_eq, findAttr_eq, seek_within_iff]

/-! ## Elements do not overlap -/

theorem openTag_within {t rest : List Char} (h : openTag "item" <+: t ++ (closeTag "item" ++ rest))
    (ht : t ≠ []) : openTag "item" <+: t := by
  rcases List.prefix_or_prefix_of_prefix h (List.prefix_append t _) with hin | ⟨u, hu⟩
  · exact hin
  · obtain ⟨v, hv⟩ := h
    rw [← hu, List.append_assoc, List.append_cancel_left_eq] at hv
    cases u with
    | nil => exact ⟨[], by rw [List.append_nil, ← hu, List.append_nil]⟩
    | cons d u =>
      -- the character where the closing tag begins would be one of `item>`
      obtain rfl : d = '<' := by simpa [closeTag] using (List.cons.inj hv).1
      have hmem : '<' ∈ (openTag "item").tail := by
        grind
      exact absurd hmem (by decide)

/-- What stands behind a tag further on is a part of what stands behind the element. -/
theorem suffix_after {item element after later front : List Char} (h : IsElement item element after)
    (hlater : openTag "item" <+: later) (hitem : item = front ++ later) (hfront : front ≠ []) :
    later <:+ after := by
  rw [h.split, ← List.append_assoc] at hitem
  rcases List.append_eq_append_iff.mp hitem with ⟨t, -, hafter⟩ | ⟨t, hend, rfl⟩
  · exact ⟨t, hafter.symm⟩
  -- the opening would begin in the element, or in its closing tag
  have hclosing : ¬ openTag "item" <+: closeTag "item" ++ after := by
    simp [openTag, closeTag]
  rcases List.append_eq_append_iff.mp hend with ⟨u, -, hclose⟩ | ⟨u, helement, rfl⟩
  · cases t with
    | nil => exact List.suffix_rfl
    | cons c t =>
      obtain rfl : '<' = c := by
        obtain ⟨v, hv⟩ := hlater
        exact (List.cons.inj hv).1
      cases u with
      | nil => exact absurd (hclose ▸ hlater) hclosing
      | cons d u =>
        have hmem : '<' ∈ (closeTag "item").tail := by simp [hclose]
        exact absurd hmem (by decide)
  · rw [List.append_assoc] at hlater
    by_cases hu : u = []
    · rw [hu, List.nil_append] at hlater
      exact absurd hlater hclosing
    · have hin : openTag "item" <:+: element.tail := by
        rw [helement, List.tail_append_of_ne_nil hfront]
        exact (openTag_within hlater hu).isInfix.trans (List.suffix_append _ _).isInfix
      exact absurd hin h.not_nested

theorem openings_order (l : List Char) : (openings l).Pairwise (fun item later =>
    ∃ front, front ≠ [] ∧ item = front ++ later) ∧
    ∀ item ∈ openings l, openTag "item" <+: item ∧ item <:+ l := by
  induction l with
  | nil => simp [openings]
  | cons c rest ih =>
    obtain ⟨horder, hopen⟩ := ih
    have hlater : ∀ item ∈ openings rest, openTag "item" <+: item ∧ item <:+ c :: rest :=
      fun item hitem => ⟨(hopen item hitem).1, (hopen item hitem).2.trans (List.suffix_cons c rest)⟩
    rw [openings]
    split
    · rename_i hfront
      constructor
      · refine List.pairwise_cons.mpr ⟨fun item hitem => ?_, horder⟩
        obtain ⟨front, hrest⟩ := (hopen item hitem).2
        exact ⟨c :: front, by simp, by rw [← hrest]; rfl⟩
      · exact List.forall_mem_cons.mpr ⟨⟨hfront, List.suffix_rfl⟩, hlater⟩
    · exact ⟨horder, hlater⟩

theorem readItems_sublist (body : String) : (readItems body).Sublist (openings body.toList) :=
  (List.take_sublist _ _).trans List.filter_sublist

/-! ## The feeds whose episodes stay apart -/

/-- Every episode is read from an opening of the feed on, and takes what it takes from inside the
element that begins there; the next episode is read behind that element. -/
structure EpisodesStay (body : String) : Prop where
  read : ∀ r ∈ tracedEpisodes body, r.1 <:+ body.toList ∧ episode r.1 = some r.2
  stays : ∀ r ∈ tracedEpisodes body, StaysInItem r.1
  apart : (tracedEpisodes body).Pairwise fun r later =>
    ∀ element after, IsElement r.1 element after → later.1 <:+ after

theorem traced_read {body : String} {r : List Char × PodcastEpisode} (h : r ∈ tracedEpisodes body) :
    r.1 <:+ body.toList ∧ episode r.1 = some r.2 := by
  constructor
  · grind [readItems, traced_items, openings_order, readItems_sublist]
  · rw [tracedEpisodes, parseLoop_eq (Nat.le_refl _) (by decide), List.nil_append] at h
    obtain ⟨item, -, hreading⟩ := List.mem_filterMap.mp (List.mem_of_mem_take h)
    obtain ⟨e, he, rfl⟩ := Option.map_eq_some_iff.mp hreading
    exact he

theorem traced_apart (body : String) : (tracedEpisodes body).Pairwise fun r later =>
    ∀ element after, IsElement r.1 element after → later.1 <:+ after := by
  obtain ⟨horder, hopen⟩ := openings_order body.toList
  have hitems : (readItems body).Pairwise fun item later =>
      ∀ element after, IsElement item element after → later <:+ after := by
    have hsub := readItems_sublist body
    refine (horder.sublist hsub).imp_of_mem fun _ hlater ⟨front, hne, hitem⟩ element after h => ?_
    exact suffix_after h (hopen _ (hsub.subset hlater)).1 hitem hne
  rw [← traced_items, List.pairwise_map] at hitems
  exact hitems

/-- **When the episodes of a feed stay in their items.** For every feed, each episode takes its title,
its address and its date from inside one element, and no element serves two episodes, exactly when
every opening that an episode is read from has the fields in its own element. -/
theorem episodes_stay_iff (body : String) :
    EpisodesStay body ↔ ∀ item ∈ readItems body, OwnItem item := by
  have hown : (∀ r ∈ tracedEpisodes body, StaysInItem r.1) ↔ ∀ item ∈ readItems body, OwnItem item := by
    rw [← traced_items, List.forall_mem_map]
    refine forall₂_congr fun r hr => staysInItem_iff ?_
    rw [← episode_isSome_iff, (traced_read hr).2]
    rfl
  exact ⟨fun h => hown.mp h.stays, fun h => ⟨fun r hr => traced_read hr, hown.mpr h, traced_apart body⟩⟩

def borrowingFeed : String :=
  "<item><title>A</title></item><item><title>B</title><enclosure url=\"u\"/></item>"

/-- The first episode gets the address of the second. -/
theorem enclosure_borrowed :
    (parseRssEpisodes borrowingFeed).map (fun e => (e.title, e.audioUrl)) = [("A", "u"), ("B", "u")] ∧
      ¬ EpisodesStay borrowingFeed := by
  refine ⟨by decide, fun h => ?_⟩
  have hfirst : borrowingFeed.toList ∈ (tracedEpisodes borrowingFeed).map Prod.fst := by decide
  obtain ⟨r, hr, hitem⟩ := List.mem_map.mp hfirst
  obtain ⟨element, after, helement, -, hurl, -⟩ := h.stays r hr
  rw [hitem] at helement hurl
  have hlate := (hurl (['u'], "/></item>".toList) (by decide)).length_le
  have hlength := congrArg List.length helement.split
  have hfront : "<item><title>A</title></item>".toList <+: borrowingFeed.toList := by decide
  have hinside : "<item><title>A</title></item>".toList <+: element := by
    refine List.prefix_of_prefix_length_le hfront ⟨_, helement.split.symm⟩ ?_
    simp only [List.length_append] at hlate hlength
    have htotal : borrowingFeed.toList.length = 78 := by decide
    have htail : "/></item>".toList.length = 9 := by decide
    have hpart : "<item><title>A</title></item>".toList.length = 29 := by decide
    omega
  have hclosed : closeTag "item" <:+: "<item><title>A</title></item>".toList :=
    ⟨"<item><title>A</title>".toList, [], by decide⟩
  exact helement.not_closed (hclosed.trans hinside.isInfix)

end MichiServer.Ingest
