import MichiServer.Catalog.Tracks
import MichiServer.Text.Like
import MichiServer.Text.Lines
import MichiServer.Text.Search
import Mathlib.Data.String.Basic

/-!
# The advanced search

A query is words, each of them a filter: of a field that it names, or of the text of the title, the artist
and the album. The search puts a condition into its statement for each filter that it can read, and
leaves out the others without a word; two of the conditions are not what their filters say. What the
filters say is stated beside it, and the tracks are told on which the two part.

The texts of artist, album, genre and title are found by `LIKE`, whose wildcards a query may use. A filter
that compares with no integer is one that no track satisfies.
-/

namespace MichiServer.Catalog.AdvancedSearch

open MichiServer.Files MichiServer.Text

/-! ## The filters of a query -/

inductive Filter where
  | artist (val : String)
  | album (val : String)
  | genre (val : String)
  | format (val : String)
  | year (val : String)
  | rating (val : String)
  | fulltext (token : String)
deriving DecidableEq

/-- The filter of a word: by the key in front of its first colon, where it has one that is known. -/
def filterOf (token : String) : Filter :=
  match splitAtFirst [':'] token.toList with
  | none => .fulltext token
  | some (key, val) =>
    match toLowercase (String.ofList key) with
    | "artist" => .artist (String.ofList val)
    | "album" => .album (String.ofList val)
    | "genre" => .genre (String.ofList val)
    | "format" => .format (String.ofList val)
    | "year" => .year (String.ofList val)
    | "rating" => .rating (String.ofList val)
    | _ => .fulltext token

def splitWhitespace (s : String) : List String :=
  ((s.toList.splitOnP isWhitespace).filter fun word => !word.isEmpty).map String.ofList

def filters (query : String) : List Filter := (splitWhitespace query).map filterOf

/-! ## Integers and comparisons -/

def integer : List Char → Option ℤ
  | '-' :: l => (digits l).map fun n => -(n : ℤ)
  | '+' :: l => (digits l).map Nat.cast
  | l => (digits l).map Nat.cast

def parseI32 (s : String) : Option ℤ :=
  (integer s.toList).filter fun n => -2 ^ 31 ≤ n ∧ n < 2 ^ 31

inductive Op where
  | gt | lt | ge | le | eq
deriving DecidableEq

def Op.holds : Op → ℤ → ℤ → Prop
  | gt, a, b => a > b
  | lt, a, b => a < b
  | ge, a, b => a ≥ b
  | le, a, b => a ≤ b
  | eq, a, b => a = b

instance (op : Op) (a b : ℤ) : Decidable (op.holds a b) :=
  match op with
  | .gt => inferInstanceAs (Decidable (a > b))
  | .lt => inferInstanceAs (Decidable (a < b))
  | .ge => inferInstanceAs (Decidable (a ≥ b))
  | .le => inferInstanceAs (Decidable (a ≤ b))
  | .eq => inferInstanceAs (Decidable (a = b))

/-! ## The search -/

/-- A condition of the statement, with the parameter that is bound to it. -/
inductive Condition where
  | artistLike (pattern : String)
  | albumLike (pattern : String)
  | genreLike (pattern : String)
  | formatEq (name : String)
  | year (op : Op) (y : ℤ)
  | rating (op : Op) (r : ℤ)
  | fulltextLike (pattern : String)

def fieldLike (field : Option String) (pattern : String) : Bool :=
  field.any fun text => like pattern.toList text.toList

def Condition.holds (t : Track) : Condition → Bool
  | artistLike pattern => fieldLike t.artist pattern
  | albumLike pattern => fieldLike t.album pattern
  | genreLike pattern => fieldLike t.genre pattern
  | formatEq name => t.format.asStr = name
  | year op y => t.year.any fun stored => op.holds stored y
  | rating op r => op.holds t.rating r
  | fulltextLike pattern =>
    fieldLike t.title pattern || fieldLike t.artist pattern || fieldLike t.album pattern

/-- `to_uppercase`, for a comparison with a text that has a small letter of ASCII, which is never the
capital of a letter. -/
def toUppercase (s : String) : String := String.ofList (s.toList.map Char.toUpper)

def between (val : String) : String := "%" ++ val ++ "%"

/-- The condition that `year:` puts into the statement. The two longer comparisons are tried after the
shorter ones that they begin with. -/
def yearCondition (val : String) : Option (Op × ℤ) :=
  match stripPrefix val ">" with
  | some rest => (parseI32 rest).map (.gt, ·)
  | none =>
    match stripPrefix val "<" with
    | some rest => (parseI32 rest).map (.lt, ·)
    | none =>
      match stripPrefix val ">=" with
      | some rest => (parseI32 rest).map (.ge, ·)
      | none =>
        match stripPrefix val "<=" with
        | some rest => (parseI32 rest).map (.le, ·)
        | none => (parseI32 val).map (.eq, ·)

def ratingCondition (val : String) : Option (Op × ℤ) :=
  match stripPrefix val ">" with
  | some rest => (parseI32 rest).map (.ge, ·)
  | none => (parseI32 val).map (.eq, ·)

def columnCondition : Filter → Option Condition
  | .artist val => some (.artistLike (between val))
  | .album val => some (.albumLike (between val))
  | .genre val => some (.genreLike (between val))
  | .format val => some (.formatEq (toUppercase val))
  | .year val => (yearCondition val).map fun c => .year c.1 c.2
  | .rating val => (ratingCondition val).map fun c => .rating c.1 c.2
  | .fulltext _ => none

def fulltextPart : Filter → Option String
  | .fulltext token => some (between token)
  | _ => none

def conditions (query : String) : List Condition :=
  (filters query).filterMap columnCondition ++
    ((filters query).filterMap fulltextPart).map Condition.fulltextLike

def titleLe (a b : Track) : Bool :=
  match a.title, b.title with
  | none, _ => true
  | some _, none => false
  | some s, some t => s ≤ t

/-- `ORDER BY title ASC`: rows with the same title are in the order of the table. -/
def byTitle (library : List Track) : List Track := library.insertionSort (titleLe · ·)

def searchTracksAdvanced (library : List Track) (query : String) : List Track :=
  ((byTitle library).filter fun t => (conditions query).all (·.holds t)).take 100

/-! ## What the filters say -/

/-- The comparison that a value says: `>`, `<`, `>=`, `<=` or `=` and an integer, or the integer alone. -/
def comparison : List Char → Option (Op × ℤ)
  | '>' :: '=' :: n => (integer n).map (.ge, ·)
  | '<' :: '=' :: n => (integer n).map (.le, ·)
  | '>' :: n => (integer n).map (.gt, ·)
  | '<' :: n => (integer n).map (.lt, ·)
  | '=' :: n => (integer n).map (.eq, ·)
  | n => (integer n).map (.eq, ·)

def Compares (val : String) (stored : ℤ) : Prop :=
  ∃ c ∈ comparison val.toList, c.1.holds stored c.2

def Mentions (field : Option String) (val : String) : Prop :=
  ∃ text ∈ field, ∃ part, Reads val.toList part ∧ part <:+: text.toList

def Filter.Accepts (t : Track) : Filter → Prop
  | artist val => Mentions t.artist val
  | album val => Mentions t.album val
  | genre val => Mentions t.genre val
  | format val => eqIgnoreAsciiCase t.format.asStr val = true
  | year val => ∃ y ∈ t.year, Compares val y
  | rating val => Compares val t.rating
  | fulltext token => Mentions t.title token ∨ Mentions t.artist token ∨ Mentions t.album token

def Satisfies (query : String) (t : Track) : Prop := ∀ f ∈ filters query, f.Accepts t

open Classical in
/-- The first hundred tracks, in the order of titles, of those that satisfy the query. -/
noncomputable def answer (library : List Track) (query : String) : List Track :=
  ((byTitle library).filter fun t => Satisfies query t).take 100

/-! ## Where they part -/

/-- The condition in the statement lets a track pass that the filter excludes: the filter was left out, or
it is `rating:>` with the very rating of the track. -/
def Filter.Slips (t : Track) : Filter → Prop
  | year val => yearCondition val = none ∧ ¬ (year val).Accepts t
  | rating val =>
    ratingCondition val = none ∧ ¬ (rating val).Accepts t ∨
      ratingCondition val = some (Op.ge, (t.rating : ℤ))
  | _ => False

def HasFormat (query : String) : Prop := ∃ val, .format val ∈ filters query

/-- A track on which the search strays from the query. With a filter of the format the search finds no
track: it strays on those that satisfy the query. Without, it strays on those that pass the filters as
they are read but slip by one of them. -/
def Strays (query : String) (t : Track) : Prop :=
  HasFormat query ∧ Satisfies query t ∨
    ¬ HasFormat query ∧ (∀ f ∈ filters query, f.Accepts t ∨ f.Slips t) ∧ ∃ f ∈ filters query, f.Slips t

theorem fieldLike_between (field : Option String) (val : String) :
    fieldLike field (between val) = true ↔ Mentions field val := by
  have hpattern : (between val).toList = '%' :: val.toList ++ ['%'] := by simp [between]
  simp only [fieldLike, Option.any_eq_true, hpattern, like_percent_iff, Mentions, Option.mem_def]

variable {l : List Char} {n : ℤ}

theorem integer_head {c : Char} (h : integer (c :: l) = some n) :
    c = '-' ∨ c = '+' ∨ c.isDigit = true := by
  by_cases hminus : c = '-'
  · exact .inl hminus
  · by_cases hplus : c = '+'
    · exact .inr (.inl hplus)
    · rw [integer.eq_3 _ (fun l' h => hminus (List.cons.inj h).1) fun l' h => hplus (List.cons.inj h).1,
        Option.map_eq_some_iff] at h
      grind [digits]

theorem integer_of_parseI32 {s : String} (h : parseI32 s = some n) :
    integer s.toList = some n :=
  (Option.filter_eq_some_iff.mp h).1

theorem comparison_integer (h : integer l = some n) :
    comparison l = some (.eq, n) := by
  cases l with
  | nil => exact nomatch h
  | cons c l =>
    have hhead := integer_head h
    have hgt : c ≠ '>' := by rintro rfl; revert hhead; decide
    have hlt : c ≠ '<' := by rintro rfl; revert hhead; decide
    have heq : c ≠ '=' := by rintro rfl; revert hhead; decide
    rw [comparison, h]
    · rfl
    · intro l' h'; exact hgt (List.cons.inj h').1
    · intro l' h'; exact hlt (List.cons.inj h').1
    · intro l' h'; exact hgt (List.cons.inj h').1
    · intro l' h'; exact hlt (List.cons.inj h').1
    · intro l' h'; exact heq (List.cons.inj h').1

theorem equals_not_integer (l : List Char) : integer ('=' :: l) = none := by
  cases h : integer ('=' :: l) with
  | none => rfl
  | some n => exact absurd (integer_head h) (by decide)

theorem comparison_gt (h : integer l = some n) :
    comparison ('>' :: l) = some (.gt, n) := by
  rw [comparison, h]
  · rfl
  · grind [equals_not_integer]

theorem comparison_lt (h : integer l = some n) :
    comparison ('<' :: l) = some (.lt, n) := by
  rw [comparison, h]
  · rfl
  · grind [equals_not_integer]

theorem strip_shorter {val rest : String} {c : Char}
    (h : stripPrefix val (String.ofList [c, '=']) = some rest) :
    stripPrefix val (String.ofList [c]) = some ("=" ++ rest) := by
  rw [stripPrefix_eq_some_iff] at h ⊢
  simpa using h

/-- A condition the source reads on the year is the comparison that is written. -/
theorem comparison_of_year {val : String} {c : Op × ℤ} (h : yearCondition val = some c) :
    comparison val.toList = some c := by
  rw [yearCondition] at h
  cases hgt : stripPrefix val ">" with
  | some rest =>
    rw [hgt] at h
    obtain ⟨n, hn, rfl⟩ := Option.map_eq_some_iff.mp h
    rw [stripPrefix_eq_some_iff.mp hgt]
    exact comparison_gt (integer_of_parseI32 hn)
  | none =>
    cases hlt : stripPrefix val "<" with
    | some rest =>
      rw [hgt, hlt] at h
      obtain ⟨n, hn, rfl⟩ := Option.map_eq_some_iff.mp h
      rw [stripPrefix_eq_some_iff.mp hlt]
      exact comparison_lt (integer_of_parseI32 hn)
    | none =>
      have hge : stripPrefix val ">=" = none :=
        Option.eq_none_iff_forall_ne_some.mpr fun rest hrest =>
          nomatch hgt.symm.trans (strip_shorter (c := '>') hrest)
      have hle : stripPrefix val "<=" = none :=
        Option.eq_none_iff_forall_ne_some.mpr fun rest hrest =>
          nomatch hlt.symm.trans (strip_shorter (c := '<') hrest)
      rw [hgt, hlt, hge, hle] at h
      obtain ⟨n, hn, rfl⟩ := Option.map_eq_some_iff.mp h
      exact comparison_integer (integer_of_parseI32 hn)

theorem comparison_of_rating {val : String} {op : Op} (h : ratingCondition val = some (op, n)) :
    op = .ge ∧ comparison val.toList = some (.gt, n) ∨
      op = .eq ∧ comparison val.toList = some (.eq, n) := by
  rw [ratingCondition] at h
  cases hgt : stripPrefix val ">" with
  | some rest =>
    rw [hgt] at h
    obtain ⟨k, hk, heq⟩ := Option.map_eq_some_iff.mp h
    obtain ⟨rfl, rfl⟩ := Prod.mk.inj heq
    rw [stripPrefix_eq_some_iff.mp hgt]
    exact .inl ⟨rfl, comparison_gt (integer_of_parseI32 hk)⟩
  | none =>
    rw [hgt] at h
    obtain ⟨k, hk, heq⟩ := Option.map_eq_some_iff.mp h
    grind [comparison_integer, integer_of_parseI32]

def Filter.Passes (t : Track) (f : Filter) : Prop :=
  (∀ c ∈ columnCondition f, c.holds t = true) ∧
    ∀ pattern ∈ fulltextPart f, (Condition.fulltextLike pattern).holds t = true

theorem conditions_hold_iff (query : String) (t : Track) :
    (conditions query).all (·.holds t) = true ↔ ∀ f ∈ filters query, f.Passes t := by
  simp only [conditions, List.all_append, Bool.and_eq_true, List.all_eq_true, List.mem_map,
    List.mem_filterMap, Filter.Passes, Option.mem_def]
  grind

theorem isLower_toUpper (c : Char) : c.toUpper.isLower = false := by
  simp only [Char.isLower, Char.toUpper]
  split <;> grind [UInt32.toNat_add, Char.toNat_val]

theorem not_passes_format (t : Track) (val : String) : ¬ (Filter.format val).Passes t := by
  intro h
  have hname : decide (t.format.asStr = toUppercase val) = true := h.1 _ rfl
  have hchars : t.format.asStr.toList = val.toList.map Char.toUpper := by
    rw [of_decide_eq_true hname, toUppercase, String.toList_ofList]
  have hsmall : ∃ c ∈ t.format.asStr.toList, c.isLower = true :=
    List.any_eq_true.mp (by cases t.format <;> decide)
  grind [isLower_toUpper]

theorem not_accepts_of_slips {t : Track} {f : Filter} (h : f.Slips t) : ¬ f.Accepts t := by
  match f, h with
  | .year val, h => exact h.2
  | .rating val, .inl h => exact h.2
  | .rating val, .inr h =>
    rintro ⟨c, hc, hholds⟩
    obtain ⟨-, hgt⟩ | ⟨hop, -⟩ := comparison_of_rating h
    · obtain rfl := Option.some.inj (hgt.symm.trans hc)
      exact lt_irrefl _ hholds
    · exact nomatch hop

theorem passes_year_iff (t : Track) (val : String) :
    (Filter.year val).Passes t ↔ (Filter.year val).Accepts t ∨ (Filter.year val).Slips t := by
  cases hcondition : yearCondition val with
  | none =>
    have hpasses : (Filter.year val).Passes t := by
      simp [Filter.Passes, columnCondition, hcondition, fulltextPart]
    have hslips : (Filter.year val).Slips t ↔ ¬ (Filter.year val).Accepts t := by
      simp only [Filter.Slips, hcondition, true_and]
    rw [hslips]
    exact iff_of_true hpasses (em _)
  | some c =>
    have hcomparison := comparison_of_year hcondition
    simp [Filter.Passes, columnCondition, hcondition, fulltextPart, Condition.holds, Filter.Slips,
      Filter.Accepts, Compares, hcomparison, Option.any_eq_true]

/-- A filter on the rating lets in what it should, and what slips through. -/
theorem passes_rating_iff (t : Track) (val : String) :
    (Filter.rating val).Passes t ↔ (Filter.rating val).Accepts t ∨ (Filter.rating val).Slips t := by
  cases hcondition : ratingCondition val with
  | none =>
    have hpasses : (Filter.rating val).Passes t := by
      simp [Filter.Passes, columnCondition, hcondition, fulltextPart]
    have hslips : (Filter.rating val).Slips t ↔ ¬ (Filter.rating val).Accepts t := by
      simp [Filter.Slips, hcondition]
    rw [hslips]
    exact iff_of_true hpasses (em _)
  | some c =>
    obtain ⟨op, n⟩ := c
    have hpasses : (Filter.rating val).Passes t ↔ op.holds t.rating n := by
      simp [Filter.Passes, columnCondition, hcondition, fulltextPart, Condition.holds]
    rw [hpasses]
    obtain ⟨rfl, hgt⟩ | ⟨rfl, heq⟩ := comparison_of_rating hcondition
    · have haccepts : (Filter.rating val).Accepts t ↔ (t.rating : ℤ) > n := by
        simp [Filter.Accepts, Compares, hgt, Op.holds]
      have hslips : (Filter.rating val).Slips t ↔ n = t.rating := by
        simp [Filter.Slips, hcondition]
      rw [haccepts, hslips, Op.holds]
      omega
    · simp [Filter.Accepts, Filter.Slips, Compares, heq, hcondition, Op.holds]

theorem passes_iff {f : Filter} (hf : ∀ val, f ≠ .format val) (t : Track) :
    f.Passes t ↔ f.Accepts t ∨ f.Slips t := by
  cases f with
  | format val => exact absurd rfl (hf val)
  | year val => exact passes_year_iff t val
  | rating val => exact passes_rating_iff t val
  | artist val | album val | genre val =>
    simp [Filter.Passes, columnCondition, fulltextPart, Condition.holds, fieldLike_between,
      Filter.Accepts, Filter.Slips]
  | fulltext token =>
    simp [Filter.Passes, columnCondition, fulltextPart, Condition.holds, fieldLike_between,
      Filter.Accepts, Filter.Slips, or_assoc]

theorem strays_iff (query : String) (t : Track) :
    Strays query t ↔ ¬ ((conditions query).all (·.holds t) = true ↔ Satisfies query t) := by
  rw [conditions_hold_iff, Satisfies, Strays]
  by_cases hformat : HasFormat query
  · have hnone : ¬ ∀ f ∈ filters query, f.Passes t := by
      obtain ⟨val, hval⟩ := hformat
      exact fun h => not_passes_format t val (h _ hval)
    rw [iff_false_left hnone, not_not]
    exact ⟨fun h => (h.resolve_right fun h => h.1 hformat).2, fun h => .inl ⟨hformat, h⟩⟩
  · have hpasses : (∀ f ∈ filters query, f.Passes t) ↔ ∀ f ∈ filters query, f.Accepts t ∨ f.Slips t :=
      forall₂_congr fun f hf => passes_iff (fun val h => hformat ⟨val, h ▸ hf⟩) t
    grind [Satisfies, not_accepts_of_slips, filters]

/-! ## The first of those that are kept -/

/-- Two filters give one page where they differ only behind it. -/
theorem take_filter_eq_iff {α : Type} (p q : α → Bool) (n : ℕ) (l : List α) :
    (l.filter p).take n = (l.filter q).take n ↔
      ∀ before a after, l = before ++ a :: after → p a ≠ q a → n ≤ before.countP q := by
  induction l generalizing n with
  | nil => simp
  | cons a l ih =>
    by_cases hpq : p a = q a
    · have hsplit : (∀ before b after, a :: l = before ++ b :: after → p b ≠ q b → n ≤ before.countP q) ↔
          ∀ before b after, l = before ++ b :: after → p b ≠ q b → n ≤ (a :: before).countP q := by
        constructor
        · grind
        · intro h before b after heq hb
          cases before with
          | nil => exact absurd ((List.cons.inj heq).1 ▸ hpq) hb
          | cons a' before =>
            grind
      rw [hsplit]
      cases hq : q a with
      | false =>
        grind
      | true =>
        rw [List.filter_cons_of_pos (by simp [hpq, hq]), List.filter_cons_of_pos hq]
        cases n with
        | zero => simp
        | succ n =>
          rw [List.take_succ_cons, List.take_succ_cons, List.cons.injEq, ih n]
          grind
    · have hfirst : (∀ before b after, a :: l = before ++ b :: after → p b ≠ q b → n ≤ before.countP q) ↔
          n = 0 :=
        ⟨fun h => Nat.le_zero.mp (h [] a l rfl hpq), fun h => by simp [h]⟩
      rw [hfirst]
      constructor
      · intro h
        by_contra hn
        obtain ⟨n, rfl⟩ := Nat.exists_eq_succ_of_ne_zero hn
        cases hq : q a with
        | false =>
          have hp : p a = true := by simpa [hq] using hpq
          rw [List.filter_cons_of_pos hp, List.filter_cons_of_neg (by simp [hq]), List.take_succ_cons] at h
          have hmem := List.mem_of_mem_take (h ▸ List.mem_cons_self)
          rw [List.mem_filter, hq] at hmem
          exact absurd hmem.2 Bool.false_ne_true
        | true =>
          have hp : p a = false := by simpa [hq] using hpq
          rw [List.filter_cons_of_neg (by simp [hp]), List.filter_cons_of_pos hq, List.take_succ_cons] at h
          have hmem := List.mem_of_mem_take (h.symm ▸ List.mem_cons_self)
          rw [List.mem_filter, hp] at hmem
          exact absurd hmem.2 Bool.false_ne_true
      · rintro rfl
        rfl

open Classical in
/-- The search returns the answer exactly where, in the order of titles, it strays on no track before a
hundred tracks that satisfy the query. -/
theorem search_tracks_advanced_eq_answer_iff (library : List Track) (query : String) :
    searchTracksAdvanced library query = answer library query ↔
      ∀ before t after, byTitle library = before ++ t :: after → Strays query t →
        100 ≤ before.countP fun t => Satisfies query t := by
  have hstrays : ∀ t, (conditions query).all (·.holds t) ≠ decide (Satisfies query t) ↔
      Strays query t := fun t => by
    rw [strays_iff, ne_eq, Bool.eq_iff_iff, decide_eq_true_iff]
  simp only [searchTracksAdvanced, answer, take_filter_eq_iff, hstrays]

def oldTrack : Track where
  id := 1
  filePath := "/music/a.flac"
  format := .flac
  year := some 1990
  createdAt := 0
  updatedAt := 0

/-- `year:>=2000` leaves a track of an earlier year in. -/
theorem year_at_least_ignored : ¬ ∀ (library : List Track) (query : String),
    searchTracksAdvanced library query = answer library query := by
  intro h
  have heq := h [oldTrack] "year:>=2000"
  have hfilters : filters "year:>=2000" = [.year ">=2000"] := by decide +kernel
  have hfound : searchTracksAdvanced [oldTrack] "year:>=2000" = [oldTrack] := by decide +kernel
  have hanswer : answer [oldTrack] "year:>=2000" = [] := by
    have hexcluded : ¬ Satisfies "year:>=2000" oldTrack := by
      intro hsat
      obtain ⟨y, hy, c, hc, hholds⟩ := hsat (.year ">=2000") (by simp [hfilters])
      obtain rfl := Option.some.inj hy
      have hcomparison : comparison ">=2000".toList = some (.ge, 2000) := by decide +kernel
      obtain rfl := Option.some.inj (hcomparison.symm.trans hc)
      exact absurd hholds (by decide)
    simp [answer, byTitle, hexcluded]
  rw [hfound, hanswer] at heq
  exact nomatch heq

end MichiServer.Catalog.AdvancedSearch
