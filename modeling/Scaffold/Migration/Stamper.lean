import Scaffold.Calendar
import Scaffold.Path

/-!
# Stamps of migrations

  A stamper reads the clock once for every stamp and gives out times that
  strictly increase: the reading cut to a whole second where that is later than
  the last time given out, and otherwise the second after that. Behind the last
  moment of the calendar there is no further time.
-/

namespace Scaffold

/-- What the clock shows each time it is read. -/
abbrev Clock := Nat → Reading

/-- The clock that shows the given readings in turn and then stands still. -/
def Clock.ofList (first : Reading) (rest : List Reading) : Clock := fun n =>
  (first :: rest)[n]?.getD (rest.getLast?.getD first)

/-- The state of a stamper. -/
structure Stamper where
  /-- The last time given out. -/
  last : Option Moment
  /-- How often the clock has been read. -/
  reads : Nat
  deriving DecidableEq

namespace Stamper

/-- A stamper that has given out nothing. -/
def new : Stamper := ⟨none, 0⟩

/-- The time for a clock that shows `now`, behind the last time given out. -/
def timeAfter (last : Option Moment) (now : Moment) : Option Moment :=
  match last with
  | none => some now
  | some t => if t.earlier now then some now else t.next?

/-- The next time, if there is one. A stamper that fails has read the clock and keeps the last
    time it gave out. -/
def next (clock : Clock) (s : Stamper) : Option Moment × Stamper :=
  match timeAfter s.last (clock s.reads).moment with
  | some t => (some t, ⟨some t, s.reads + 1⟩)
  | none => (none, ⟨s.last, s.reads + 1⟩)

/-- The directory of migrations. -/
def migrationsDir : String := "migrations"

/-- The file of a migration. -/
def pathFor (outputDir : Path) (t : Moment) (discriminator : String) : Path :=
  (outputDir.join migrationsDir).join s!"{t.stamp}-{discriminator}.js"

end Stamper

end Scaffold
