import Scaffold.Naming.Casing

/-!
# Plurals of names

  The plural of a name by the rules of English spelling. Listed nouns are
  recognised on the last segment of a camelCase or snake_case name, whatever
  its letter case; the other rules look at the end of the whole name. Every
  rule takes a number of characters off the end and puts some text in their
  place, so a plural is described by an `Inflection`.
-/

namespace Scaffold.Naming

open Text

/-! ## Listed nouns -/

/-- Nouns whose plural is the noun itself. -/
def uncountable : List String :=
  ["equipment", "information", "rice", "money", "species", "series", "fish", "sheep", "deer",
    "moose", "data", "metadata", "news"]

/-- Nouns with a plural of their own. -/
def irregular : List (String × String) :=
  [("person", "people"), ("child", "children"), ("man", "men"), ("woman", "women"),
    ("foot", "feet"), ("tooth", "teeth"), ("goose", "geese"), ("mouse", "mice"), ("ox", "oxen"),
    ("index", "indices"), ("matrix", "matrices"), ("vertex", "vertices"), ("datum", "data"),
    ("medium", "media"), ("criterion", "criteria"), ("phenomenon", "phenomena")]

/-- Nouns in -f that take -ves. -/
def nounsInF : List String := ["leaf", "shelf", "self", "half", "calf", "loaf", "thief", "wolf"]

/-- Nouns in -o that take -es. -/
def nounsInO : List String := ["hero", "potato", "tomato", "echo", "veto"]

/-! ## The last segment -/

/-- The characters up to and with the first upper-case one. -/
def throughUpper : List Char → List Char
  | [] => []
  | c :: cs => if isUpper c then [c] else c :: throughUpper cs

/-- The last word of a name: what follows the last underscore, from its last capital on. -/
def lastSegment (name : List Char) : List Char :=
  (throughUpper (name.reverse.takeWhile (· != '_'))).reverse

/-! ## Inflections -/

/-- Take `dropped` characters off the end and write `added` there. -/
structure Inflection where
  dropped : Nat
  added : String
  deriving DecidableEq

/-- A name after an inflection. -/
def Inflection.apply (i : Inflection) (name : List Char) : List Char :=
  name.take (name.length - i.dropped) ++ i.added.toList

/-- The name ends in `ending`, in any letter case of ASCII. -/
def endsIn (ending : String) (name : List Char) : Bool :=
  ending.toList.isSuffixOf (name.map Char.toLower)

/-- The letters that keep a final -y. -/
def isVowel (c : Char) : Bool := ['a', 'e', 'i', 'o', 'u'].contains c

/-- The name ends in -y with a character other than a vowel before it. -/
def endsInConsonantY (name : List Char) : Bool :=
  match name.reverse.map Char.toLower with
  | 'y' :: c :: _ => !isVowel c
  | _ => false

/-- The inflection of a name whose last segment, in lower case, is no listed plural. -/
def regularInflection (name : List Char) (segment : String) : Inflection :=
  if endsIn "is" name && 2 < name.length then ⟨2, "es"⟩
  else if endsIn "fe" name then ⟨2, "ves"⟩
  else if nounsInF.contains segment then ⟨1, "ves"⟩
  else if nounsInO.contains segment then ⟨0, "es"⟩
  else if ["s", "x", "z", "ch", "sh"].any (endsIn · name) then ⟨0, "es"⟩
  else if endsInConsonantY name then ⟨1, "ies"⟩
  else ⟨0, "s"⟩

/-- The rule that gives the plural of a name that is not empty. -/
def inflection (name : List Char) : Inflection :=
  let segment := lastSegment name
  let key := String.ofList (lowerChars segment)
  if uncountable.contains key then ⟨0, ""⟩
  else match irregular.lookup key with
    | some plural =>
      ⟨segment.length, if (segment.head?.map isUpper).getD false then capitalize plural else plural⟩
    | none => regularInflection name key

/-- The plural of a name, character by character. -/
def pluralizeChars (name : List Char) : List Char :=
  if name.isEmpty then [] else (inflection name).apply name

/-- The plural of a name. -/
def pluralize (name : String) : String := String.ofList (pluralizeChars name.toList)

@[simp] theorem toList_pluralize (name : String) :
    (pluralize name).toList = pluralizeChars name.toList := String.toList_ofList

end Scaffold.Naming
