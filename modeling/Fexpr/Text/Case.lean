import Fexpr.Text.Case.Table

/-!
# Upper and lower case

Whole texts in upper or lower case, by the full Unicode mappings: a letter may become several
characters, and a capital sigma becomes the final form at the end of a word.
-/

namespace Fexpr.Text

open Case

/-- The code point that a table of runs moves `n` to. -/
def Case.shifted? (runs : Array (Nat × Nat × Nat × Int)) (n : Nat) : Option Nat :=
  runs.findSome? fun (first, last, step, shift) =>
    if first ≤ n && n ≤ last && (n - first) % step == 0 then some (n + shift).toNat else none

/-- Whether a table of runs holds the character. -/
def Case.inRuns (runs : Array (Nat × Nat)) (c : Char) : Bool :=
  runs.any fun run => run.1 ≤ c.toNat && c.toNat ≤ run.2

/-- The upper case of one character. -/
def upperChar (c : Char) : List Char :=
  if c.toNat < 0x80 then [c.toUpper]
  else match longUppers.find? (·.1 == c.toNat) with
    | some (_, upper) => upper.map Char.ofNat
    | none => [((shifted? upperRuns c.toNat).map Char.ofNat).getD c]

/-- The lower case of one character that stands by itself. -/
def lowerChar (c : Char) : List Char :=
  if c.toNat < 0x80 then [c.toLower]
  else if c.toNat = 0x130 then ['i', Char.ofNat 0x307]
  else [((shifted? lowerRuns c.toNat).map Char.ofNat).getD c]

/-- The text in upper case. -/
def upper (cs : List Char) : List Char :=
  cs.flatMap upperChar

/-- Whether the nearest character that counts has case. -/
def Case.touchesCased (cs : List Char) : Bool :=
  (cs.dropWhile (inRuns ignorableRuns)).head?.any (inRuns casedRuns)

/-- The text in lower case, after the characters `before`, the nearest first. -/
def Case.lowerAfter (before : List Char) : List Char → List Char
  | [] => []
  | c :: rest =>
    let here :=
      if c = 'Σ' then
        [if touchesCased before && !touchesCased rest then 'ς' else 'σ']
      else lowerChar c
    here ++ lowerAfter (c :: before) rest

/-- The text in lower case. -/
def lower (cs : List Char) : List Char :=
  lowerAfter [] cs

end Fexpr.Text
