import Mathlib.Data.List.TakeWhile
import Mathlib.Data.Nat.Notation

/-!
# URLs of the special schemes

The URL grammar of the WHATWG, for `http`, `https`, `ws` and `wss` without a base: blanks at the ends
go, line breaks and tabs go everywhere, slashes of either kind before the authority go, however many
there are, and the last at sign ends the credentials. What makes a host of a text is a parameter. Path
segments are as they are spelled: percent-encoding makes none of two.
-/

namespace MichiServer.Text

structure WebUrl where
  scheme : String
  username : String
  password : Option String
  host : String
  port : Option ℕ
  path : List (List Char)
deriving DecidableEq

namespace WebUrl

def blank (c : Char) : Bool := c.val ≤ 0x20

def kept (c : Char) : Bool := c ≠ '\t' && c ≠ '\n' && c ≠ '\r'

def slash (c : Char) : Bool := c = '/' || c = '\\'

def marks (c : Char) : Bool := c = '?' || c = '#'

def inner (c : Char) : Bool := !slash c && !marks c

def trimEnd (s : List Char) : List Char := (s.reverse.dropWhile blank).reverse

def defaultPort (scheme : String) : ℕ := if scheme = "https" ∨ scheme = "wss" then 443 else 80

def knownPort (u : WebUrl) : ℕ := u.port.getD (defaultPort u.scheme)

def behindAt (authority : List Char) : List Char := (authority.reverse.takeWhile (· ≠ '@')).reverse

def beforeAt (authority : List Char) : List Char :=
  ((authority.reverse.dropWhile (· ≠ '@')).drop 1).reverse

/-- The text of the host, up to a colon outside brackets, and what stands behind the colon. -/
def splitPort (bracket : Bool) : List Char → List Char × Option (List Char)
  | [] => ([], none)
  | c :: rest =>
    if c = ':' && !bracket then ([], some rest)
    else
      let r := splitPort (c = '[' || bracket && c ≠ ']') rest
      (c :: r.1, r.2)

def readPort (scheme : String) : Option (List Char) → Option (Option ℕ)
  | none | some [] => some none
  | some digits =>
    if digits.all Char.isDigit && Nat.ofDigitChars 10 digits 0 ≤ 65535 then
      let port := Nat.ofDigitChars 10 digits 0
      some (if port = defaultPort scheme then none else some port)
    else none

def doubleDot (segment : List Char) : Bool :=
  segment.map Char.toLower ∈ ["..", ".%2e", "%2e.", "%2e%2e"].map String.toList

def singleDot (segment : List Char) : Bool :=
  segment.map Char.toLower ∈ [".", "%2e"].map String.toList

def push (path : List (List Char)) (segment : List Char) : List (List Char) :=
  if doubleDot segment then path.dropLast
  else if singleDot segment then path
  else path ++ [segment]

def pushLast (path : List (List Char)) (segment : List Char) : List (List Char) :=
  if doubleDot segment then path.dropLast ++ [[]]
  else if singleDot segment then path ++ [[]]
  else path ++ [segment]

def segments (s : List Char) : List (List Char) := (s.splitOnP slash).tail

/-- The path that stands at the beginning of what follows the authority. -/
def pathOf (s : List Char) : List (List Char) :=
  let segs := segments (s.takeWhile fun c => !marks c)
  pushLast (segs.dropLast.foldl push []) (segs.getLast?.getD [])

section

variable (host : List Char → Option String)

def parseSpecial (scheme : String) (s : List Char) : Option WebUrl :=
  let s := s.dropWhile slash
  let authority := s.takeWhile inner
  let user := beforeAt authority
  let place := splitPort false (behindAt authority)
  if place.1 = [] then none
  else
    match host place.1, readPort scheme place.2 with
    | some name, some port => some
        { scheme
          username := String.ofList (user.takeWhile (· ≠ ':'))
          password :=
            match user.dropWhile (· ≠ ':') with
            | [] | [_] => none
            | _ :: text => some (String.ofList text)
          host := name
          port
          path := pathOf (s.dropWhile inner) }
    | _, _ => none

def parse (s : String) : Option WebUrl :=
  let s := trimEnd ((s.toList.filter kept).dropWhile blank)
  let scheme := String.ofList ((s.takeWhile (· ≠ ':')).map Char.toLower)
  match s.dropWhile (· ≠ ':') with
  | _ :: rest =>
    if scheme ∈ ["http", "https", "ws", "wss"] then parseSpecial host scheme rest else none
  | [] => none

/-- What is known of the hosts: none has a blank, and a number is an address, so not a scheme's name. -/
structure Hosts : Prop where
  blank : ∀ s c, c ∈ s → WebUrl.blank c = true → host s = none
  number : ∀ s name, s ≠ [] → (∀ c ∈ s, c.isDigit = true) →
    String.ofList (name.map Char.toLower) ∈ ["http", "https"] → ∀ h, host name = some h →
      host s ≠ some h

end

section

variable {host : List Char → Option String} {scheme : String} {s : List Char} {u : WebUrl}

theorem parseSpecial_spec (h : parseSpecial host scheme s = some u) :
    u.scheme = scheme ∧
      (splitPort false (behindAt ((s.dropWhile slash).takeWhile inner))).1 ≠ [] ∧
      host (splitPort false (behindAt ((s.dropWhile slash).takeWhile inner))).1 = some u.host ∧
      readPort scheme (splitPort false (behindAt ((s.dropWhile slash).takeWhile inner))).2 =
        some u.port ∧ u.path = pathOf ((s.dropWhile slash).dropWhile inner) := by
  grind [parseSpecial]

theorem exists_parseSpecial {name : String} {port : Option ℕ}
    (hne : (splitPort false (behindAt ((s.dropWhile slash).takeWhile inner))).1 ≠ [])
    (hhost : host (splitPort false (behindAt ((s.dropWhile slash).takeWhile inner))).1 = some name)
    (hport : readPort scheme (splitPort false (behindAt ((s.dropWhile slash).takeWhile inner))).2 =
      some port) :
    ∃ u, parseSpecial host scheme s = some u ∧ u.scheme = scheme ∧ u.host = name ∧ u.port = port ∧
      u.path = pathOf ((s.dropWhile slash).dropWhile inner) := by
  unfold parseSpecial
  dsimp only
  rw [if_neg hne, hhost, hport]
  exact ⟨_, rfl, rfl, rfl, rfl, rfl⟩

theorem splitPort_eq (bracket : Bool) (s : List Char) :
    s = (splitPort bracket s).1 ++ ((splitPort bracket s).2.map (':' :: ·)).getD [] := by
  induction s generalizing bracket with
  | nil => rfl
  | cons c rest ih =>
    grind [splitPort]

theorem splitPort_append {s : List Char} (h : ∀ c ∈ s, c ≠ ':' ∧ c ≠ '[') (rest : List Char) :
    splitPort false (s ++ ':' :: rest) = (s, some rest) := by
  induction s with
  | nil => simp [splitPort]
  | cons c t ih =>
    rw [List.forall_mem_cons] at h
    simp [splitPort, h.1.1, h.1.2, ih h.2]

theorem splitPort_none {s : List Char} (h : ∀ c ∈ s, c ≠ ':' ∧ c ≠ '[') :
    splitPort false s = (s, none) := by
  induction s with
  | nil => rfl
  | cons c t ih =>
    rw [List.forall_mem_cons] at h
    simp [splitPort, h.1.1, h.1.2, ih h.2]

theorem digits_of_readPort {text : List Char} {port : Option ℕ} (hne : text ≠ [])
    (h : readPort scheme (some text) = some port) :
    (∀ c ∈ text, c.isDigit = true) ∧
      port.getD (defaultPort scheme) = Nat.ofDigitChars 10 text 0 ∧
      ∀ scheme', ∃ port', readPort scheme' (some text) = some port' ∧
        port'.getD (defaultPort scheme') = Nat.ofDigitChars 10 text 0 := by
  grind [readPort]

theorem not_at_of_mem_reverse {s : List Char} (h : '@' ∉ s) :
    ∀ c ∈ s.reverse, (c ≠ '@' : Bool) = true := fun _ hc =>
  decide_eq_true fun heq => h (heq ▸ List.mem_reverse.mp hc)

theorem behindAt_of_not_mem {s : List Char} (h : '@' ∉ s) : behindAt s = s := by
  rw [behindAt, List.takeWhile_eq_self_iff.mpr (not_at_of_mem_reverse h), List.reverse_reverse]

theorem behindAt_append {s t : List Char} (ht : '@' ∉ t) :
    behindAt (s ++ t) = behindAt s ++ t := by
  rw [behindAt, List.reverse_append, List.takeWhile_append_of_pos (not_at_of_mem_reverse ht),
    List.reverse_append, List.reverse_reverse]
  rfl

theorem behindAt_of_mem {s t : List Char} (h : '@' ∈ t) : behindAt (s ++ t) = behindAt t := by
  unfold behindAt
  rw [List.reverse_append, List.takeWhile_append]
  split
  next hlength =>
    exfalso
    have hself := List.takeWhile_eq_self_iff.mp
      ((List.takeWhile_prefix (fun c => (c ≠ '@' : Bool))).eq_of_length hlength)
    simpa using hself '@' (List.mem_reverse.mpr h)
  next => rfl

end

end WebUrl

end MichiServer.Text
