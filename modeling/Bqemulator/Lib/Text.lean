import Mathlib

/-!
# Text operations

The operations on strings that a program of a scripting language uses, written over the list of
characters so that they compute in proofs.
-/

namespace Text

/-- The parts of `s` before and after the first `c`. -/
def splitOnce (c : Char) (s : String) : Option (String × String) :=
  match s.toList.span (· ≠ c) with
  | (_, []) => none
  | (before, _ :: after) => some (String.ofList before, String.ofList after)

theorem splitOnce_eq_none {c : Char} {s : String} (h : c ∉ s.toList) : splitOnce c s = none := by
  have ha : s.toList.dropWhile (· ≠ c) = [] := by
    rw [List.dropWhile_eq_nil_iff]
    intro d hd
    simpa using fun hdc : d = c => h (hdc ▸ hd)
  rw [splitOnce, List.span_eq_takeWhile_dropWhile, ha]

variable (s : String)

def strip : String :=
  String.ofList
    ((s.toList.dropWhile Char.isWhitespace).reverse.dropWhile Char.isWhitespace).reverse

def lower : String :=
  String.ofList (s.toList.map Char.toLower)

theorem lower_append (a b : String) : lower (a ++ b) = lower a ++ lower b := by
  simp [lower]

def upper : String :=
  String.ofList (s.toList.map Char.toUpper)

def startsWith (s head : String) : Bool :=
  head.toList.isPrefixOf s.toList

def contains (s part : String) : Bool :=
  s.toList.tails.any fun rest => part.toList.isPrefixOf rest

def endsWith (s last : String) : Bool :=
  last.toList.isSuffixOf s.toList

def words : List String :=
  ((s.toList.splitOnP Char.isWhitespace).filter (· ≠ [])).map String.ofList

/-- Whether `s` is a name: a letter or underscore, then letters, digits and underscores. -/
def isIdentifier : Bool :=
  match s.toList with
  | [] => false
  | c :: rest => (c.isAlpha || c = '_') && rest.all fun d => d.isAlphanum || d = '_'

/-- The text without blanks and parentheses around it. -/
def unwrapped : String :=
  if startsWith (strip s) "(" && endsWith (strip s) ")" then
    String.ofList ((strip s).toList.drop 1).dropLast
  else strip s

def drop (n : Nat) : String :=
  String.ofList (s.toList.drop n)

def singleQuote : Char := Char.ofNat 39

def doubleQuote : Char := Char.ofNat 34

def escapeChar (quote c : Char) : List Char :=
  if c = quote ∨ c = Char.ofNat 92 then [Char.ofNat 92, c]
  else if c = '\n' then [Char.ofNat 92, 'n']
  else if c = '\t' then [Char.ofNat 92, 't']
  else if c = '\r' then [Char.ofNat 92, 'r']
  else [c]

/-- `s` in quotes, as messages show a value: in single quotes unless it has them and no double
ones. -/
def quoted : String :=
  let quote := if singleQuote ∈ s.toList ∧ doubleQuote ∉ s.toList then doubleQuote else singleQuote
  String.ofList ([quote] ++ s.toList.flatMap (escapeChar quote) ++ [quote])

/-- What identifier patterns match. -/
def isWordChar (c : Char) : Bool :=
  c.isAlphanum || c = '_'

/-- The characters a pattern anchored by `$` has to cover: `$` also stands before a final
newline. -/
def anchored : List Char :=
  if s.toList.getLast? = some '\n' then s.toList.dropLast else s.toList

theorem mem_anchored {value : String} {c : Char} (h : c ∈ value.toList) (hc : c ≠ '\n') :
    c ∈ anchored value := by
  unfold anchored
  split
  · rename_i hl
    obtain ⟨cs, hcs⟩ := List.getLast?_eq_some_iff.1 hl
    rw [hcs] at h ⊢
    simpa [hc] using h
  · exact h

end Text
