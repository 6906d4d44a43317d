import Scaffold.Text.CaseTable

/-!
# Letter case of text

  Upper and lower case by the full mappings of the Unicode standard, so one
  character may become several. ASCII is answered directly; every other
  character is looked up in `Scaffold.Text.CaseTable`. Lower-casing a text
  writes a capital sigma that ends a word as a final sigma.
-/

namespace Scaffold.Text

/-! ## Looking a character up -/

/-- The character `c` moves to under the first run that holds it. -/
def shiftIn (runs : List CaseRun) (c : Char) : Option Char :=
  (runs.find? fun r =>
    r.first ≤ c.toNat && c.toNat ≤ r.last && (c.toNat - r.first) % r.stride == 0).map
      fun r => Char.ofNat ((c.toNat : Int) + r.shift).toNat

/-- The several characters listed for `c`. -/
def expandIn (table : List (Nat × List Nat)) (c : Char) : Option (List Char) :=
  (table.lookup c.toNat).map (·.map Char.ofNat)

/-- `c` lies in one of the closed ranges. -/
def inRanges (ranges : List (Nat × Nat)) (c : Char) : Bool :=
  ranges.any fun r => r.1 ≤ c.toNat && c.toNat ≤ r.2

/-- `c` lies in one of the runs. -/
def inRuns (runs : List CharRun) (c : Char) : Bool :=
  runs.any fun r =>
    r.first ≤ c.toNat && c.toNat ≤ r.last && (c.toNat - r.first) % r.stride == 0

/-- `c` is an ASCII character. -/
def isAscii (c : Char) : Bool := c.toNat < 128

/-! ## One character -/

/-- The upper case of a character. -/
def upperOf (c : Char) : List Char :=
  if isAscii c then [c.toUpper]
  else match expandIn CaseTable.upperExpansions c with
    | some cs => cs
    | none => [(shiftIn CaseTable.upper c).getD c]

/-- The lower case of a character, wherever it stands. -/
def lowerOf (c : Char) : List Char :=
  if isAscii c then [c.toLower]
  else match expandIn CaseTable.lowerExpansions c with
    | some cs => cs
    | none => [(shiftIn CaseTable.lower c).getD c]

/-- An upper-case letter or symbol. -/
def isUpper (c : Char) : Bool :=
  if isAscii c then 'A' ≤ c && c ≤ 'Z' else inRuns CaseTable.isUpper c

/-- A character that has case. -/
def isCased (c : Char) : Bool := inRanges CaseTable.cased c

/-- A character that is passed over when the end of a word is looked for. -/
def isCaseIgnorable (c : Char) : Bool := inRanges CaseTable.caseIgnorable c

/-! ## A whole text -/

/-- The first character that is not passed over has case. -/
def meetsCased (cs : List Char) : Bool :=
  match cs.dropWhile isCaseIgnorable with
  | [] => false
  | c :: _ => isCased c

/-- Lower case of a text of which `before` has been read, nearest character first.
    A capital sigma with a cased letter before it and none after it ends a word. -/
def lowerFrom (before : List Char) : List Char → List Char
  | [] => []
  | c :: cs =>
    (if c = 'Σ' then (if meetsCased before && !meetsCased cs then ['ς'] else ['σ'])
      else lowerOf c) ++ lowerFrom (c :: before) cs

/-- Lower case of a list of characters. -/
def lowerChars (cs : List Char) : List Char := lowerFrom [] cs

/-- Lower case of a text. -/
def lower (s : String) : String := String.ofList (lowerChars s.toList)

/-- Upper case of a text. -/
def upper (s : String) : String := String.ofList (s.toList.flatMap upperOf)

/-! ## ASCII needs no table -/

@[simp] theorem upperOf_ascii {c : Char} (h : isAscii c = true) : upperOf c = [c.toUpper] := by
  simp [upperOf, h]

@[simp] theorem lowerOf_ascii {c : Char} (h : isAscii c = true) : lowerOf c = [c.toLower] := by
  simp [lowerOf, h]

end Scaffold.Text
