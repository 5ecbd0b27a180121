import Mathlib

/-!
# Python's text functions

The methods of `str` and the parts of `urllib.parse` that a program uses, and the exceptions it
names. What Unicode tables or the address parser decide is a parameter.
-/

namespace Python

open List

def isAscii (cs : List Char) : Prop := ∀ c ∈ cs, c.toNat < 128

structure Runtime where
  /-- `str.lower`. -/
  lower : List Char → List Char
  lower_ascii : ∀ cs, isAscii cs → lower cs = cs.map Char.toLower
  /-- The netloc keeps its delimiters under NFKC normalization. -/
  checkNetloc : List Char → Bool
  checkNetloc_ascii : ∀ cs, isAscii cs → checkNetloc cs = true
  /-- What stands between brackets is an IPv6 or a future address. -/
  checkBracketedHost : List Char → Bool

/-- `str.isspace` of one character. -/
def isSpace (c : Char) : Bool :=
  let n := c.toNat
  (9 ≤ n ∧ n ≤ 13) ∨ (0x1C ≤ n ∧ n ≤ 0x20) ∨ n = 0x85 ∨ n = 0xA0 ∨ n = 0x1680 ∨
    (0x2000 ≤ n ∧ n ≤ 0x200A) ∨ n = 0x2028 ∨ n = 0x2029 ∨ n = 0x202F ∨ n = 0x205F ∨ n = 0x3000

def strip (cs : List Char) : List Char :=
  ((cs.dropWhile isSpace).reverse.dropWhile isSpace).reverse

variable {cs : List Char}

theorem mem_of_mem_strip {c : Char} (hc : c ∈ strip cs) : c ∈ cs := by
  have hreverse := (dropWhile_sublist isSpace).subset (mem_reverse.mp hc)
  exact (dropWhile_sublist isSpace).subset (mem_reverse.mp hreverse)

theorem strip_of_no_space (hcs : ∀ c ∈ cs, isSpace c = false) : strip cs = cs := by
  have hdrop : ∀ ds : List Char, (∀ c ∈ ds, isSpace c = false) → ds.dropWhile isSpace = ds := by
    intro ds hds
    cases ds with
    | nil => rfl
    | cons d ds => rw [dropWhile_cons_of_neg (by simp [hds d mem_cons_self])]
  rw [strip, hdrop cs hcs, hdrop cs.reverse fun c hc => hcs c (mem_reverse.mp hc), reverse_reverse]

/-- What stands before the first separator, whether there is one, and what stands behind it. -/
def partition (separator : Char) (cs : List Char) : List Char × Bool × List Char :=
  (cs.takeWhile (· ≠ separator), cs.contains separator, (cs.dropWhile (· ≠ separator)).drop 1)

def rpartition (separator : Char) (cs : List Char) : List Char × Bool × List Char :=
  if cs.contains separator then
    (((cs.reverse.dropWhile (· ≠ separator)).drop 1).reverse, true,
      (cs.reverse.takeWhile (· ≠ separator)).reverse)
  else ([], false, cs)

def isLineBreak (c : Char) : Bool :=
  let n := c.toNat
  (10 ≤ n ∧ n ≤ 13) ∨ (0x1C ≤ n ∧ n ≤ 0x1E) ∨ n = 0x85 ∨ n = 0x2028 ∨ n = 0x2029

def splitlines : List Char → List (List Char)
  | [] => []
  | '\r' :: '\n' :: rest => [] :: splitlines rest
  | c :: rest =>
    if isLineBreak c then [] :: splitlines rest
    else
      match splitlines rest with
      | [] => [[c]]
      | line :: lines => (c :: line) :: lines

section Lines

variable {c : Char} {line rest text : List Char}

/-- A character in front of the first line. -/
def consLine (c : Char) : List (List Char) → List (List Char)
  | [] => [[c]]
  | line :: lines => (c :: line) :: lines

theorem splitlines_cons (hc : isLineBreak c = false) :
    splitlines (c :: rest) = consLine c (splitlines rest) := by
  rw [splitlines]
  · rw [if_neg (by simp [hc])]
    cases splitlines rest <;> rfl
  · rintro rest rfl _
    cases hc

theorem splitlines_break (hc : isLineBreak c = true) (hrest : c = '\r' → rest.head? ≠ some '\n') :
    splitlines (c :: rest) = [] :: splitlines rest := by
  rw [splitlines]
  · rw [if_pos hc]
  · rintro tail rfl rfl
    exact hrest rfl rfl

theorem splitlines_newline : splitlines ('\n' :: rest) = [] :: splitlines rest :=
  splitlines_break (by decide) fun h => absurd h (by decide)

/-- A text without line breaks is a line. -/
def Plain (line : List Char) : Prop := ∀ c ∈ line, isLineBreak c = false

instance : Decidable (Plain line) := line.decidableBAll _

theorem splitlines_line (hline : Plain line) : splitlines (line ++ '\n' :: rest) = line :: splitlines rest := by
  induction line with
  | nil => exact splitlines_newline
  | cons c line ih =>
    rw [cons_append, splitlines_cons (hline c mem_cons_self),
      ih fun d hd => hline d (mem_cons_of_mem c hd)]
    rfl

theorem splitlines_flatMap {lines : List (List Char)} (hlines : ∀ line ∈ lines, Plain line) :
    splitlines (lines.flatMap (· ++ ['\n'])) = lines := by
  induction lines with
  | nil => rfl
  | cons line lines ih =>
    rw [flatMap_cons, append_assoc, singleton_append, splitlines_line (hlines line mem_cons_self),
      ih fun other hother => hlines other (mem_cons_of_mem line hother)]

theorem plain_of_mem_splitlines : ∀ line ∈ splitlines text, Plain line := by
  fun_induction splitlines text with
  | case1 => simp
  | case2 rest ih => exact forall_mem_cons.mpr ⟨by simp [Plain], ih⟩
  | case3 c rest _ _ ih => exact forall_mem_cons.mpr ⟨by simp [Plain], ih⟩
  | case4 c rest _ hc hnil ih =>
    have hc' : isLineBreak c = false := by simpa using hc
    simp [Plain, hc']
  | case5 c rest _ hc line lines hlines ih =>
    have hc' : isLineBreak c = false := by simpa using hc
    rw [hlines] at ih
    have hline := forall_mem_cons.mp ih
    refine forall_mem_cons.mpr ⟨?_, hline.2⟩
    exact forall_mem_cons.mpr ⟨hc', hline.1⟩

/-- Texts by what `splitlines` looks at first. -/
theorem splitlines_induction {motive : List Char → Prop} (nil : motive []) (cr : motive ['\r'])
    (crlf : ∀ rest, motive rest → motive ('\r' :: '\n' :: rest))
    (line : ∀ c rest, isLineBreak c = true → (c = '\r' → ∃ d tail, rest = d :: tail ∧ d ≠ '\n') →
      motive rest → motive (c :: rest))
    (char : ∀ c rest, isLineBreak c = false → motive rest → motive (c :: rest)) (text : List Char) :
    motive text := by
  fun_induction splitlines text with
  | case1 => exact nil
  | case2 rest ih => exact crlf rest ih
  | case3 c rest hcrlf hc ih =>
    by_cases hcr : c = '\r'
    · cases rest with
      | nil => rw [hcr]; exact cr
      | cons d tail =>
        refine line c (d :: tail) hc (fun _ => ⟨d, tail, rfl, fun hd => ?_⟩) ih
        exact hcrlf tail hcr (by rw [hd])
    · exact line c rest hc (fun h => absurd h hcr) ih
  | case4 c rest _ hc _ ih => exact char c rest (by simpa using hc) ih
  | case5 c rest _ hc _ _ _ ih => exact char c rest (by simpa using hc) ih

theorem splitlines_ne_nil (htext : text ≠ []) : splitlines text ≠ [] := by
  fun_cases splitlines text <;> simp_all

/-- A line feed ends what stands before it. -/
theorem splitlines_append (text : List Char) :
    splitlines (text ++ '\n' :: rest) = splitlines (text ++ ['\n']) ++ splitlines rest := by
  induction text using splitlines_induction with
  | nil => simp [splitlines_newline, splitlines]
  | cr => simp [splitlines]
  | crlf tail ih => simp [splitlines, ih]
  | line c tail hc hcr ih =>
    have hhead : ∀ more, c = '\r' → (tail ++ '\n' :: more).head? ≠ some '\n' := by
      rintro more rfl
      obtain ⟨d, tail, rfl, hd⟩ := hcr rfl
      simp [hd]
    rw [cons_append, cons_append, splitlines_break hc (hhead _), splitlines_break hc (hhead _),
      ih, cons_append]
  | char c tail hc ih =>
    rw [cons_append, cons_append, splitlines_cons hc, splitlines_cons hc, ih]
    cases hlines : splitlines (tail ++ ['\n']) with
    | nil => exact absurd hlines (splitlines_ne_nil (by simp))
    | cons line lines => rfl

/-- A line feed at the end closes the last line, or adds an empty one. -/
theorem splitlines_concat (text : List Char) :
    splitlines (text ++ ['\n']) = splitlines text ∨
      splitlines (text ++ ['\n']) = splitlines text ++ [[]] := by
  induction text using splitlines_induction with
  | nil => exact .inr rfl
  | cr => exact .inl rfl
  | crlf tail ih => simpa [splitlines] using ih
  | line c tail hc hcr ih =>
    have hhead : c = '\r' → (tail ++ ['\n']).head? ≠ some '\n' ∧ tail.head? ≠ some '\n' := by
      rintro rfl
      obtain ⟨d, tail, rfl, hd⟩ := hcr rfl
      simp [hd]
    rw [cons_append, splitlines_break hc fun h => (hhead h).1,
      splitlines_break hc fun h => (hhead h).2]
    simpa using ih
  | char c tail hc ih =>
    rw [cons_append, splitlines_cons hc, splitlines_cons hc]
    rcases ih with ih | ih
    · exact .inl (by rw [ih])
    · cases hlines : splitlines tail with
      | nil => exact .inl (by rw [ih, hlines]; rfl)
      | cons line lines => exact .inr (by rw [ih, hlines]; rfl)

end Lines

inductive Exc where
  | urlError
  | timeoutError
  /-- Another `OSError`, such as a connection that was reset. -/
  | osError (name : String)
  | jsonDecodeError
  | recursionError
  | other (name : String)
deriving DecidableEq, Repr

def Exc.name : Exc → String
  | .urlError => "URLError"
  | .timeoutError => "TimeoutError"
  | .osError name => name
  | .jsonDecodeError => "JSONDecodeError"
  | .recursionError => "RecursionError"
  | .other name => name

structure SplitResult where
  scheme : List Char
  netloc : List Char
  path : List Char
  query : List Char
  fragment : List Char
deriving DecidableEq

def isSchemeChar (c : Char) : Bool := c.isAlphanum || ['+', '-', '.'].contains c

def splitScheme (url : List Char) : List Char × List Char :=
  let (scheme, found, rest) := partition ':' url
  if found && scheme.head?.any Char.isAlpha && scheme.all isSchemeChar then
    (scheme.map Char.toLower, rest)
  else ([], url)

def endsNetloc (c : Char) : Bool := ['/', '?', '#'].contains c

def splitNetloc : List Char → List Char × List Char
  | '/' :: '/' :: rest => (rest.takeWhile (!endsNetloc ·), rest.dropWhile (!endsNetloc ·))
  | url => ([], url)

def bracketsMatch (py : Runtime) (netloc : List Char) : Bool :=
  if netloc.contains '[' || netloc.contains ']' then
    netloc.contains '[' && netloc.contains ']' &&
      py.checkBracketedHost (partition ']' (partition '[' netloc).2.2).1
  else true

/-- Nothing where `urlsplit` raises `ValueError`. -/
def urlsplit (py : Runtime) (url : List Char) : Option SplitResult :=
  let url := (url.dropWhile (·.toNat ≤ 0x20)).filter fun c => !(['\t', '\r', '\n'].contains c)
  let (scheme, rest) := splitScheme url
  let (netloc, rest) := splitNetloc rest
  let (rest, _, fragment) := partition '#' rest
  let (path, _, query) := partition '?' rest
  if bracketsMatch py netloc && py.checkNetloc netloc then
    some { scheme, netloc, path, query, fragment }
  else none

namespace SplitResult

def anonymous (result : SplitResult) : Bool := !result.netloc.contains '@'

def hostname (result : SplitResult) : List Char :=
  let hostinfo := (rpartition '@' result.netloc).2.2
  let (_, bracketed, rest) := partition '[' hostinfo
  if bracketed then (partition ']' rest).1 else (partition ':' hostinfo).1

end SplitResult

end Python
