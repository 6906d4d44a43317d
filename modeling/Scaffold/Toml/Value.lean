import Scaffold.Decimal.Double
import Scaffold.Dict

/-!
# Values of TOML and the tables that hold them

  A table can be given a header, be named by the header of a table below it,
  be made by a key with dots, or stand between braces. How it came to be
  decides what may still be added to it: a header may follow once for a table
  that so far was only named from below, and keys with dots may extend only
  tables that they have made. An array of tables takes additions in its last
  table.
-/

namespace Scaffold.Toml

/-- How a table came to be. -/
inductive Origin where
  /-- It has a header; the whole document counts as such. -/
  | header
  /-- The header of a table below names it. -/
  | above
  /-- A key with dots leads through it. -/
  | dotted
  /-- It stands between braces. -/
  | inline
  deriving DecidableEq

/-- A value. -/
inductive Value where
  | text (s : String)
  | bool (b : Bool)
  | integer (i : Int)
  | double (d : Decimal.Double)
  /-- A date, a time or both, as a normal text. -/
  | moment (text : String)
  | array (items : List Value)
  | table (origin : Origin) (entries : List (String × Value))
  /-- An array of tables that have headers; it holds at least one. -/
  | tables (before : List (List (String × Value))) (last : List (String × Value))

/-- The keys of a table and their values. -/
abbrev Entries := List (String × Value)

/-- The value under a key. -/
def Entries.get? (es : Entries) (key : String) : Option Value := es.lookup key

/-! ## Additions -/

/-- Change the table at the end of a path. Tables that are not there are made, and only those
    that `enters` allows are gone through. -/
def alter (made : Origin) (enters : Origin → Bool) (change : Origin → Entries → Option Entries) :
    List String → Origin → Entries → Option Entries
  | [], origin, es => change origin es
  | key :: path, _, es => do
    let v ← match (es.lookup key).getD (.table made []) with
      | .table origin inner =>
        if enters origin then (alter made enters change path origin inner).map (.table origin)
        else none
      | .tables before last => (alter made enters change path .header last).map (.tables before)
      | _ => none
    return putEntry key v es

/-- Keys with dots go through tables without a header of their own. -/
def Origin.isOpen : Origin → Bool
  | above | dotted => true
  | header | inline => false

/-- Headers go through every table that does not stand between braces. -/
def Origin.isReachable : Origin → Bool
  | inline => false
  | _ => true

/-- Add a value to a table under a key that is not there yet. Behind dots the key must belong to
    a table that was made by dots. -/
def Entries.addPair (path : List String) (key : String) (v : Value) (es : Entries) :
    Option Entries :=
  alter .dotted Origin.isOpen (fun origin es =>
    if (origin == .dotted) == path.isEmpty || (es.lookup key).isSome then none
    else some (es ++ [(key, v)])) path .header es

/-- Change the table under a header. -/
def Entries.atHeader (path : List String) (change : Entries → Option Entries) (es : Entries) :
    Option Entries :=
  alter .above Origin.isReachable (fun _ es => change es) path .header es

/-- A header for a table. -/
def Entries.openTable (path : List String) (key : String) (es : Entries) : Option Entries :=
  es.atHeader path fun es => match es.lookup key with
    | none => some (es ++ [(key, .table .header [])])
    | some (.table .above inner) => some (putEntry key (.table .header inner) es)
    | some _ => none

/-- A header for one more table of an array. -/
def Entries.openNext (path : List String) (key : String) (es : Entries) : Option Entries :=
  es.atHeader path fun es => match es.lookup key with
    | none => some (es ++ [(key, .tables [] [])])
    | some (.tables before last) => some (putEntry key (.tables (before ++ [last]) []) es)
    | some _ => none

/-! ## Numbers -/

mutual

/-- All whole numbers in a value pass a test. -/
def Value.integersPass (p : Int → Bool) : Value → Bool
  | .integer i => p i
  | .array items => itemsPass p items
  | .table _ es => entriesPass p es
  | .tables before last => tablesPass p before && entriesPass p last
  | .text _ | .bool _ | .double _ | .moment _ => true

/-- All whole numbers in the items of an array pass a test. -/
def itemsPass (p : Int → Bool) : List Value → Bool
  | [] => true
  | v :: vs => v.integersPass p && itemsPass p vs

/-- All whole numbers in a table pass a test. -/
def entriesPass (p : Int → Bool) : List (String × Value) → Bool
  | [] => true
  | (_, v) :: es => v.integersPass p && entriesPass p es

/-- All whole numbers in an array of tables pass a test. -/
def tablesPass (p : Int → Bool) : List (List (String × Value)) → Bool
  | [] => true
  | es :: ts => entriesPass p es && tablesPass p ts

end

end Scaffold.Toml
