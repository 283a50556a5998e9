import MichiServer.Settings.Updates
import MichiServer.Text.WebUrl

/-!
# Can the accepted peers be connected to?

`update_settings_handler` takes a peer as a URL with `http` or `https`, and `start_sync_peers` puts it,
as it is, between `ws://` and `/api/sync`. So what was the scheme comes to stand where the host is, or
before an at sign.
-/

namespace MichiServer.Settings

open MichiServer.Text WebUrl

section

variable (host : List Char → Option String)

def parseUrl (peer : String) : Option Url :=
  (parse host peer).map fun u => ⟨u.scheme, some u.host, u.username, u.password⟩

def syncUrl (peer : String) : String := "ws://" ++ peer ++ "/api/sync"

def endpoint : List (List Char) := ["api".toList, "sync".toList]

/-- The URL that is built is one of a WebSocket, for the host and the port of the peer and the path of
the endpoint. -/
def Connectable (peer : String) : Prop :=
  ∃ u v, parse host peer = some u ∧ parse host (syncUrl peer) = some v ∧
    (v.scheme = "ws" ∨ v.scheme = "wss") ∧ v.host = u.host ∧ v.knownPort = u.knownPort ∧
    v.path = endpoint

/-- What stands between the end of the authority and `/api/sync` comes to nothing: its segments cancel
out, or it is the endpoint itself, before a query or a fragment. -/
def Vanishes (s : List Char) : Prop :=
  if s.any marks then pathOf s = endpoint else (segments s).foldl push [] = []

def schemeText (peer : String) : List Char := (peer.toList.filter kept).takeWhile (· ≠ ':')

def peerText (peer : String) : List Char := ((peer.toList.filter kept).dropWhile (· ≠ ':')).drop 1

/-- There are slashes, the host is the scheme's own name and the port is 80; or there are none, and the
host and the port stand behind an at sign, without blanks, and the port is there or is 80. -/
def Fits (peer : String) (u : WebUrl) : Prop :=
  let authority := (peerText peer).takeWhile WebUrl.inner
  if authority = [] then
    host (schemeText peer) = some u.host ∧ u.knownPort = 80 ∧ Vanishes (peerText peer)
  else
    '@' ∈ authority ∧ (∀ c ∈ behindAt authority, blank c = false) ∧
      (u.scheme = "http" ∨ ∃ text ≠ [], (splitPort false (behindAt authority)).2 = some text) ∧
      Vanishes ((peerText peer).dropWhile WebUrl.inner)

end

/-! ## The path -/

/-- The path is the endpoint exactly where nothing is left before it. -/
theorem pathOf_append {s : List Char} : pathOf (s ++ "/api/sync".toList) = endpoint ↔ Vanishes s := by
  unfold Vanishes
  by_cases hmarks : s.any marks = true
  · rw [if_pos hmarks]
    obtain ⟨c, hc, hmark⟩ := List.any_eq_true.mp hmarks
    have hcut : (s ++ "/api/sync".toList).takeWhile (fun c => !marks c) =
        s.takeWhile fun c => !marks c := by
      rw [List.takeWhile_append, if_neg]
      intro hlength
      have hself := List.takeWhile_eq_self_iff.mp
        ((List.takeWhile_prefix (fun c => !marks c)).eq_of_length hlength) c hc
      simp [hmark] at hself
    rw [pathOf, hcut]
    rfl
  · rw [if_neg hmarks]
    have hcut : (s ++ "/api/sync".toList).takeWhile (fun c => !marks c) = s ++ "/api/sync".toList := by
      rw [List.takeWhile_eq_self_iff]
      intro c hc
      rcases List.mem_append.mp hc with hc | hc
      · grind [marks]
      · exact List.all_eq_true.mp (by decide : "/api/sync".toList.all (!marks ·) = true) c hc
    have hsegments : segments (s ++ "/api/sync".toList) =
        segments s ++ endpoint := by
      have hsplit : (s ++ "/api/sync".toList).splitOnP slash =
          s.splitOnP slash ++ endpoint := by
        rw [show "/api/sync".toList = '/' :: "api/sync".toList from rfl,
          List.splitOnP_append_cons _ _ (by decide)]
        rfl
      rw [segments, hsplit, List.tail_append_of_ne_nil (List.splitOnP_ne_nil _ _)]
      rfl
    rw [pathOf, hcut, hsegments]
    have hlast : segments s ++ endpoint = (segments s ++ ["api".toList]) ++ ["sync".toList] := by
      rw [List.append_assoc]
      rfl
    rw [hlast, List.dropLast_concat, List.foldl_append]
    have hpush : ∀ path, pushLast (push path "api".toList) "sync".toList =
        path ++ endpoint := fun path => by
      rw [push, if_neg (by decide), if_neg (by decide), pushLast, if_neg (by decide),
        if_neg (by decide), List.append_assoc]
      rfl
    simp only [List.foldl_cons, List.foldl_nil, List.getLast?_concat, Option.getD_some, hpush,
      List.append_left_eq_self]

/-! ## The two texts -/

section

variable {host : List Char → Option String} {peer : String} {u : WebUrl}

/-- A letter of a scheme, or a blank before it, means nothing in an authority. -/
def Idle (c : Char) : Prop := WebUrl.inner c = true ∧ c ≠ '@' ∧ c ≠ ':' ∧ c ≠ '['

theorem idle_of_blank {c : Char} (h : blank c = true) : Idle c := by
  have hne : ∀ d ∈ "/\\?#@:[".toList, c ≠ d := by
    rintro d hd rfl
    have hblank : (!blank c) = true :=
      List.all_eq_true.mp (by decide : "/\\?#@:[".toList.all (!blank ·) = true) c hd
    simp [h] at hblank
  simpa [Idle, WebUrl.inner, slash, marks, and_assoc] using hne

theorem idle_of_letter {c : Char} {scheme : String}
    (hscheme : scheme ∈ ["http", "https", "ws", "wss"]) (h : c.toLower ∈ scheme.toList) : Idle c := by
  have hletters : ["http", "https", "ws", "wss"].all
      (fun scheme => scheme.toList.all fun d => decide (d ∈ "htpsw".toList)) = true := by decide
  have hletter : c.toLower ∈ "htpsw".toList :=
    of_decide_eq_true (List.all_eq_true.mp (List.all_eq_true.mp hletters scheme hscheme) _ h)
  have hne : ∀ d ∈ "/\\?#@:[".toList, c ≠ d := by
    rintro d hd rfl
    have hother : "/\\?#@:[".toList.all (fun d => decide (d.toLower ∉ "htpsw".toList)) = true := by decide
    exact absurd hletter (of_decide_eq_true (List.all_eq_true.mp hother c hd))
  simpa [Idle, WebUrl.inner, slash, marks, and_assoc] using hne

/-- The parts of a peer that can be parsed. -/
theorem exists_of_parse (h : parse host peer = some u) :
    ∃ lead name rest trail, schemeText peer = lead ++ name ∧ peerText peer = rest ++ trail ∧
      peer.toList.filter kept = schemeText peer ++ ':' :: peerText peer ∧
      (∀ c ∈ lead, blank c = true) ∧ (∀ c ∈ trail, blank c = true) ∧ name ≠ [] ∧
      (∀ c ∈ name, Idle c) ∧ String.ofList (name.map Char.toLower) = u.scheme ∧
      parseSpecial host u.scheme rest = some u := by
  set p := peer.toList.filter kept with hp
  set core := WebUrl.trimEnd (p.dropWhile blank) with hcore
  unfold parse at h
  rw [← hp, ← hcore] at h
  dsimp only at h
  split at h
  next c rest hrest =>
    split at h
    next hscheme =>
      obtain rfl : c = ':' := by
        have hhead := List.head?_dropWhile_not (fun c => decide (c ≠ ':')) core
        rw [hrest] at hhead
        simpa using hhead
      set name := core.takeWhile (· ≠ ':') with hname
      have hsplit : core = name ++ ':' :: rest := by
        rw [← hrest, hname, List.takeWhile_append_dropWhile]
      obtain ⟨lead, hlead⟩ : ∃ lead, lead = p.takeWhile blank := ⟨_, rfl⟩
      obtain ⟨trail, htrail⟩ : ∃ trail, trail = ((p.dropWhile blank).reverse.takeWhile blank).reverse :=
        ⟨_, rfl⟩
      have hwhole : p = (lead ++ name) ++ ':' :: (rest ++ trail) := by
        have hbody : p.dropWhile blank = core ++ trail := by
          rw [hcore, htrail, WebUrl.trimEnd, ← List.reverse_append, List.takeWhile_append_dropWhile,
            List.reverse_reverse]
        calc p = p.takeWhile blank ++ p.dropWhile blank := (List.takeWhile_append_dropWhile ..).symm
          _ = _ := by rw [hbody, hsplit, ← hlead]; simp
      have hblank : ∀ c ∈ lead, blank c = true := fun c hc => List.mem_takeWhile_imp (hlead ▸ hc)
      have hidle : ∀ c ∈ name, Idle c := fun c hc => idle_of_letter hscheme (by
        rw [String.toList_ofList]
        exact List.mem_map_of_mem hc)
      have hplain : ∀ c ∈ lead ++ name, (c ≠ ':' : Bool) = true := by
        intro c hc
        rcases List.mem_append.mp hc with hc | hc
        · exact decide_eq_true (idle_of_blank (hblank c hc)).2.2.1
        · exact decide_eq_true (hidle c hc).2.2.1
      have hschemeText : schemeText peer = lead ++ name := by
        rw [schemeText, ← hp, hwhole, List.takeWhile_append_of_pos hplain]
        simp
      have hpeerText : peerText peer = rest ++ trail := by
        rw [peerText, ← hp, hwhole, List.dropWhile_append_of_pos hplain]
        simp
      rw [(parseSpecial_spec h).1]
      refine ⟨lead, name, rest, trail, hschemeText, hpeerText, ?_, hblank, fun c hc => ?_,
        fun hnil => ?_, hidle, rfl, h⟩
      · rw [hschemeText, hpeerText]
        exact hwhole
      · exact List.mem_takeWhile_imp (List.mem_reverse.mp (htrail ▸ hc))
      · rw [hnil] at hscheme
        revert hscheme
        decide
    next => cases h
  next => cases h

/-- The URL that is built is read behind `ws:`. -/
theorem parse_syncUrl (peer : String) : parse host (syncUrl peer) =
    parseSpecial host "ws" ("//".toList ++ (peer.toList.filter kept ++ "/api/sync".toList)) := by
  have hkept : (syncUrl peer).toList.filter kept =
      "ws://".toList ++ (peer.toList.filter kept ++ "/api/sync".toList) := by
    rw [syncUrl, String.toList_append, String.toList_append, List.filter_append, List.filter_append,
      List.append_assoc]
    rfl
  have htrim : WebUrl.trimEnd ("ws://".toList ++ (peer.toList.filter kept ++ "/api/sync".toList)) =
      "ws://".toList ++ (peer.toList.filter kept ++ "/api/sync".toList) := by
    rw [WebUrl.trimEnd, ← List.append_assoc, List.reverse_append,
      show "/api/sync".toList.reverse = 'c' :: "nys/ipa/".toList from rfl, List.cons_append,
      List.dropWhile_cons_of_neg (by decide), ← List.cons_append,
      show 'c' :: "nys/ipa/".toList = "/api/sync".toList.reverse from rfl, ← List.reverse_append,
      List.reverse_reverse]
  unfold parse
  rw [hkept]
  have hstart : ("ws://".toList ++ (peer.toList.filter kept ++ "/api/sync".toList)).dropWhile blank =
      "ws://".toList ++ (peer.toList.filter kept ++ "/api/sync".toList) :=
    List.dropWhile_cons_of_neg (by decide)
  rw [hstart, htrim]
  rfl

/-- Its authority begins with what was the peer's scheme. -/
theorem built_parts {n y : List Char} (hn : ∀ c ∈ n, Idle c) :
    let s := ("//".toList ++ (n ++ ':' :: y ++ "/api/sync".toList)).dropWhile slash
    s.takeWhile WebUrl.inner = n ++ ':' :: y.takeWhile WebUrl.inner ∧
      s.dropWhile WebUrl.inner = y.dropWhile WebUrl.inner ++ "/api/sync".toList := by
  have hinner : ∀ c ∈ n ++ [':'], WebUrl.inner c = true := by
    intro c hc
    rcases List.mem_append.mp hc with hc | hc
    · exact (hn c hc).1
    · rw [List.mem_singleton.mp hc]
      decide
  have hstart : ("//".toList ++ (n ++ ':' :: y ++ "/api/sync".toList)).dropWhile slash =
      (n ++ [':']) ++ (y ++ "/api/sync".toList) := by
    rw [List.dropWhile_append_of_pos (List.all_eq_true.mp (by decide))]
    cases n with
    | nil => rfl
    | cons c rest =>
      have hc : ¬ slash c = true := fun h => by
        have hc := hinner c (by simp)
        simp [WebUrl.inner, h] at hc
      rw [List.cons_append, List.cons_append, List.dropWhile_cons_of_neg hc]
      simp
  dsimp only
  rw [hstart, List.takeWhile_append_of_pos hinner, List.dropWhile_append_of_pos hinner]
  have hend : ("/api/sync".toList).takeWhile WebUrl.inner = [] := by decide +kernel
  constructor
  · rw [List.takeWhile_append, List.append_assoc, hend]
    split
    next hlength =>
      rw [List.append_nil, (List.takeWhile_prefix WebUrl.inner).eq_of_length hlength]
      rfl
    next => rfl
  · rw [List.dropWhile_append]
    split
    next hnil =>
      rw [List.isEmpty_iff.mp hnil]
      decide
    next => rfl

/-- A peer can be connected to exactly where host and port are read back behind its scheme. -/
theorem connectable_iff_read (hu : parse host peer = some u) (hn : ∀ c ∈ schemeText peer, Idle c)
    (hp : peer.toList.filter kept = schemeText peer ++ ':' :: peerText peer) :
    Connectable host peer ↔
      ∃ place port, place =
          splitPort false (behindAt (schemeText peer ++ ':' :: (peerText peer).takeWhile WebUrl.inner)) ∧
        place.1 ≠ [] ∧ host place.1 = some u.host ∧ readPort "ws" place.2 = some port ∧
        port.getD 80 = u.knownPort ∧ Vanishes ((peerText peer).dropWhile WebUrl.inner) := by
  obtain ⟨hauthority, hpath⟩ := built_parts (y := peerText peer) hn
  have hread : parse host (syncUrl peer) = parseSpecial host "ws"
      ("//".toList ++ (schemeText peer ++ ':' :: peerText peer ++ "/api/sync".toList)) := by
    rw [parse_syncUrl, hp]
  constructor
  · rintro ⟨u', v, hu', hv, -, hhost, hport, hend⟩
    cases hu.symm.trans hu'
    rw [hread] at hv
    obtain ⟨hscheme, hne, hvHost, hvPort, hvPath⟩ := parseSpecial_spec hv
    rw [hauthority] at hne hvHost hvPort
    rw [hpath, hend] at hvPath
    refine ⟨_, v.port, rfl, hne, hhost ▸ hvHost, hvPort, ?_, pathOf_append.mp hvPath.symm⟩
    rw [← hport, knownPort, hscheme]
    rfl
  · rintro ⟨place, port, rfl, hne, hhost, hport, hknown, hend⟩
    rw [← hauthority] at hne hhost hport
    obtain ⟨v, hv, hscheme, hvHost, hvPort, hvPath⟩ := exists_parseSpecial hne hhost hport
    refine ⟨u, v, hu, hread.trans hv, .inl hscheme, hvHost, ?_, ?_⟩
    · rw [knownPort, hscheme, hvPort, ← hknown]
      rfl
    · rw [hvPath, hpath]
      exact pathOf_append.mpr hend

theorem not_blank_of_digit {c : Char} (h : c.isDigit = true) : blank c = false := by
  simp only [Char.isDigit, Bool.and_eq_true, decide_eq_true_eq] at h
  exact decide_eq_false fun hblank => absurd (UInt32.le_trans h.1 hblank) (by decide)

theorem no_blank_of_read (hhosts : Hosts host) {s : List Char} {name scheme : String} {port : Option ℕ}
    (hhost : host (splitPort false s).1 = some name)
    (hport : readPort scheme (splitPort false s).2 = some port) : ∀ c ∈ s, blank c = false := by
  intro c hc
  rw [splitPort_eq false s, List.mem_append] at hc
  rcases hc with hc | hc
  · refine Bool.eq_false_iff.mpr fun hblank => ?_
    cases (hhosts.blank _ c hc hblank).symm.trans hhost
  · cases htext : (splitPort false s).2 with
    | none => simp [htext] at hc
    | some text =>
      rw [htext] at hc hport
      rcases List.mem_cons.mp hc with rfl | hc
      · decide
      · exact not_blank_of_digit ((digits_of_readPort (List.ne_nil_of_mem hc) hport).1 c hc)

theorem eq_nil_of_blank {s t : List Char} (ht : ∀ c ∈ t, blank c = true)
    (h : ∀ c ∈ s ++ t, blank c = false) : t = [] :=
  List.eq_nil_iff_forall_not_mem.mpr fun c hc => by
    simpa [ht c hc] using h c (List.mem_append_right _ hc)

theorem readPort_absent {text : Option (List Char)} (h : ¬ ∃ t ≠ [], text = some t) (scheme : String) :
    readPort scheme text = some none := by
  cases text with
  | none => rfl
  | some t =>
    cases t with
    | nil => rfl
    | cons c rest => exact absurd ⟨_, List.cons_ne_nil _ _, rfl⟩ h

/-- Behind an at sign they are read back where nothing is blank and the port is given. -/
theorem read_behindAt_iff (hhosts : Hosts host) {b t : List Char} (ht : ∀ c ∈ t, blank c = true)
    (hscheme : u.scheme = "http" ∨ u.scheme = "https") (hne : (splitPort false b).1 ≠ [])
    (hhost : host (splitPort false b).1 = some u.host)
    (hport : readPort u.scheme (splitPort false b).2 = some u.port) :
    (∃ place port, place = splitPort false (b ++ t) ∧ place.1 ≠ [] ∧ host place.1 = some u.host ∧
        readPort "ws" place.2 = some port ∧ port.getD 80 = u.knownPort) ↔
      (∀ c ∈ b ++ t, blank c = false) ∧
        (u.scheme = "http" ∨ ∃ text ≠ [], (splitPort false (b ++ t)).2 = some text) := by
  have hknown (htext : ∃ text ≠ [], (splitPort false b).2 = some text) :
      ∃ port, readPort "ws" (splitPort false b).2 = some port ∧ port.getD 80 = u.knownPort := by
    obtain ⟨text, hne, htext⟩ := htext
    rw [htext] at hport ⊢
    obtain ⟨-, hvalue, hother⟩ := digits_of_readPort hne hport
    obtain ⟨port, hread, hport⟩ := hother "ws"
    exact ⟨port, hread, hport.trans hvalue.symm⟩
  constructor
  · rintro ⟨place, port, rfl, -, hplace, hread, hvalue⟩
    have hblank := no_blank_of_read hhosts hplace hread
    rw [eq_nil_of_blank ht hblank, List.append_nil] at hread ⊢
    refine ⟨fun c hc => hblank c (List.mem_append_left _ hc), ?_⟩
    by_contra hnot
    rw [not_or] at hnot
    rw [readPort_absent hnot.2] at hread hport
    cases hread
    rw [knownPort, ← Option.some.inj hport, hscheme.resolve_left hnot.1] at hvalue
    revert hvalue
    decide
  · rintro ⟨hblank, hportGiven⟩
    rw [eq_nil_of_blank ht hblank, List.append_nil] at hportGiven ⊢
    by_cases htext : ∃ text ≠ [], (splitPort false b).2 = some text
    · obtain ⟨port, hread, hvalue⟩ := hknown htext
      exact ⟨_, port, rfl, hne, hhost, hread, hvalue⟩
    · refine ⟨_, none, rfl, hne, hhost, readPort_absent htext "ws", ?_⟩
      rw [readPort_absent htext] at hport
      rw [knownPort, ← Option.some.inj hport, hportGiven.resolve_right htext]
      rfl

theorem takeWhile_inner_append (rest : List Char) {trail : List Char} (h : ∀ c ∈ trail, blank c = true) :
    ∃ t, (rest ++ trail).takeWhile WebUrl.inner = rest.takeWhile WebUrl.inner ++ t ∧ ∀ c ∈ t, blank c = true := by
  rw [List.takeWhile_append]
  split
  next hlength =>
    rw [(List.takeWhile_prefix WebUrl.inner).eq_of_length hlength]
    exact ⟨_, rfl, fun c hc => h c ((List.takeWhile_prefix _).subset hc)⟩
  next => exact ⟨[], by simp, by simp⟩

/-- A port that is a number does not read as the scheme. -/
theorem number_is_no_scheme (hhosts : Hosts host) {n a t lead name : List Char} {port : Option ℕ}
    (hn : ∀ c ∈ n, Idle c) (hsplit : n = lead ++ name) (hlead : ∀ c ∈ lead, blank c = true)
    (hscheme : String.ofList (name.map Char.toLower) ∈ ["http", "https"])
    (hne : (splitPort false (behindAt a)).1 ≠ []) (hat : '@' ∉ a ++ t)
    (hhost : host (splitPort false (behindAt a)).1 = some u.host)
    (hplace : host (splitPort false (n ++ ':' :: (a ++ t))).1 = some u.host)
    (hread : readPort "ws" (splitPort false (n ++ ':' :: (a ++ t))).2 = some port) : False := by
  rw [splitPort_append (fun c hc => (hn c hc).2.2)] at hplace hread
  have ha : '@' ∉ a := fun h => hat (List.mem_append_left _ h)
  rw [behindAt_of_not_mem ha] at hne hhost
  have hane : a ≠ [] := by
    rintro rfl
    exact hne rfl
  have hdigits := (digits_of_readPort (by simp [hane]) hread).1
  have hno : ∀ c ∈ a, c ≠ ':' ∧ c ≠ '[' := fun c hc => by
    have hdigit := hdigits c (List.mem_append_left _ hc)
    constructor <;> rintro rfl <;> exact absurd hdigit (by decide)
  rw [splitPort_none hno] at hhost
  cases lead with
  | nil =>
    rw [hsplit] at hplace
    exact hhosts.number a name hane (fun c hc => hdigits c (List.mem_append_left _ hc)) hscheme _
      hplace hhost
  | cons c rest =>
    have hblank := hhosts.blank n c (by simp [hsplit]) (hlead c (by simp))
    cases hblank.symm.trans hplace

end

/-- An accepted peer can be connected to exactly where it fits between the two pieces. -/
theorem connectable_iff (host : List Char → Option String) (hhosts : Hosts host) (peer : String)
    (u : WebUrl) (hu : parse host peer = some u)
    (haccepted : checkPeer (parseUrl host) peer = .ok ()) :
    Connectable host peer ↔ Fits host peer u := by
  have hscheme : u.scheme = "http" ∨ u.scheme = "https" := by
    by_contra hother
    rw [checkPeer, parseUrl, hu, Option.map_some] at haccepted
    simp only [if_pos (not_or.mp hother)] at haccepted
    cases haccepted
  obtain ⟨lead, name, rest, trail, hn, hy, hp, hlead, htrail, hname, hidle, hlower, hspecial⟩ :=
    exists_of_parse hu
  have hidle : ∀ c ∈ schemeText peer, Idle c := by
    intro c hc
    rw [hn] at hc
    rcases List.mem_append.mp hc with hc | hc
    · exact idle_of_blank (hlead c hc)
    · exact hidle c hc
  rw [connectable_iff_read hu hidle hp, Fits]
  by_cases hnil : (peerText peer).takeWhile WebUrl.inner = []
  · have hdrop : (peerText peer).dropWhile WebUrl.inner = peerText peer := by
      have hwhole := List.takeWhile_append_dropWhile (p := WebUrl.inner) (l := peerText peer)
      rwa [hnil] at hwhole
    have hno : '@' ∉ schemeText peer ++ [':'] := by
      rw [List.mem_append]
      rintro (h | h)
      · exact (hidle _ h).2.1 rfl
      · simp at h
    rw [if_pos hnil, hnil, hdrop, behindAt_of_not_mem hno, splitPort_append fun c hc => (hidle c hc).2.2]
    constructor
    · rintro ⟨place, port, rfl, -, hhost, hport, hknown, hend⟩
      cases hport
      exact ⟨hhost, hknown.symm, hend⟩
    · rintro ⟨hhost, hknown, hend⟩
      exact ⟨_, none, rfl, by simp [hn, hname], hhost, rfl, hknown.symm, hend⟩
  · rw [if_neg hnil]
    have hrest : rest.dropWhile slash = rest := by
      cases hrest : rest with
      | nil => rfl
      | cons c r =>
        refine List.dropWhile_cons_of_neg fun hslash => hnil ?_
        rw [hy, hrest]
        exact List.takeWhile_cons_of_neg (by simp [WebUrl.inner, hslash])
    obtain ⟨-, hne, hhost, hport, -⟩ := parseSpecial_spec hspecial
    rw [hrest] at hne hhost hport
    obtain ⟨t, happend, ht⟩ := takeWhile_inner_append rest htrail
    rw [hy, happend]
    have htat : '@' ∉ t := fun h => absurd (ht _ h) (by decide)
    by_cases hat : '@' ∈ rest.takeWhile WebUrl.inner ++ t
    · have ha := (List.mem_append.mp hat).resolve_right htat
      have hb := behindAt_append (s := rest.takeWhile WebUrl.inner) htat
      have hbuilt : behindAt (schemeText peer ++ ':' :: (rest.takeWhile WebUrl.inner ++ t)) =
          behindAt (rest.takeWhile WebUrl.inner) ++ t := by
        rw [← hb, List.append_cons]
        exact behindAt_of_mem hat
      rw [hbuilt, hb]
      have hiff := read_behindAt_iff hhosts ht hscheme hne hhost hport
      constructor
      · rintro ⟨place, port, hplace, hne, hhost, hport, hknown, hend⟩
        obtain ⟨hblank, hgiven⟩ := hiff.mp ⟨place, port, hplace, hne, hhost, hport, hknown⟩
        exact ⟨hat, hblank, hgiven, hend⟩
      · rintro ⟨-, hblank, hgiven, hend⟩
        obtain ⟨place, port, hplace, hne, hhost, hport, hknown⟩ := hiff.mpr ⟨hblank, hgiven⟩
        exact ⟨place, port, hplace, hne, hhost, hport, hknown, hend⟩
    · refine iff_of_false ?_ fun h => hat h.1
      rintro ⟨place, port, hplace, -, hplaceHost, hread, -⟩
      have hno : '@' ∉ schemeText peer ++ ':' :: (rest.takeWhile WebUrl.inner ++ t) := by
        rw [List.mem_append, List.mem_cons]
        rintro (h | h | h)
        · exact (hidle _ h).2.1 rfl
        · cases h
        · exact hat h
      rw [hplace, behindAt_of_not_mem hno] at hplaceHost hread
      exact number_is_no_scheme hhosts hidle hn hlead (by rw [hlower]; simpa using hscheme) hne hat
        hhost hplaceHost hread

def wordHost (s : List Char) : Option String :=
  if s.all Char.isAlpha then some (String.ofList (s.map Char.toLower)) else none

theorem wordHost_hosts : Hosts wordHost where
  blank s c hc hblank := by
    refine if_neg fun hall => ?_
    have halpha := List.all_eq_true.mp hall c hc
    simp only [Char.isAlpha, Char.isUpper, Char.isLower, Bool.or_eq_true, Bool.and_eq_true,
      decide_eq_true_eq] at halpha
    rcases halpha with h | h <;>
      exact absurd (UInt32.le_trans h.1 (of_decide_eq_true hblank)) (by decide)
  number s name hne hdigits _ h _ := by
    obtain ⟨c, rest, rfl⟩ := List.exists_cons_of_ne_nil hne
    have hdigit := hdigits c (by simp)
    rw [wordHost, if_neg]
    · simp
    · intro hall
      have halpha := List.all_eq_true.mp hall c (by simp)
      simp only [Char.isAlpha, Char.isUpper, Char.isLower, Char.isDigit, Bool.or_eq_true,
        Bool.and_eq_true, decide_eq_true_eq] at halpha hdigit
      grind

/-- Behind an at sign the host is kept. -/
theorem connectable_nas : Connectable wordHost "http:@nas:4000" := by
  refine (connectable_iff wordHost wordHost_hosts "http:@nas:4000"
    ⟨"http", "", none, "nas", some 4000, [[]]⟩ (by decide +kernel) (by decide +kernel)).mpr ?_
  have htext : peerText "http:@nas:4000" = "@nas:4000".toList := by decide +kernel
  have hplace : behindAt "@nas:4000".toList = ['n', 'a', 's', ':', '4', '0', '0', '0'] := by decide
  have hauthority : "@nas:4000".toList.takeWhile WebUrl.inner = "@nas:4000".toList := by decide
  rw [Fits, htext, hauthority, if_neg (by decide), hplace]
  refine ⟨by decide, by simp [blank], .inl rfl, ?_⟩
  rw [Vanishes, if_neg (by decide)]
  decide

/-- A peer is accepted, and the URL that is built of it is one for the host `http`. -/
theorem peer_becomes_http : checkPeer (parseUrl wordHost) "http://nas:4000" = .ok () ∧
    ¬ Connectable wordHost "http://nas:4000" := by
  refine ⟨by decide +kernel, ?_⟩
  rintro ⟨u, v, hu, hv, -, hhost, -⟩
  have hu' : parse wordHost "http://nas:4000" =
      some ⟨"http", "", none, "nas", some 4000, [[]]⟩ := by decide +kernel
  have hv' : parse wordHost (syncUrl "http://nas:4000") =
      some ⟨"ws", "", none, "http", none, [[], "nas:4000".toList, "api".toList, "sync".toList]⟩ := by
    decide +kernel
  grind

end MichiServer.Settings
