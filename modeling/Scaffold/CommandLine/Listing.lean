import Scaffold.Run.Report
import Scaffold.Settings.Basic

/-!
# What is shown of entities and runs

  The listing of a batch of definitions with their classified associations,
  and the summary of a run.
-/

namespace Scaffold.CommandLine

/-! ## Entities -/

/-- The word for an arity. -/
def arityWord : Arity → String
  | .one => "One"
  | .many => "Many"

/-- The line of an association; `label` says who answers for it. -/
def associationLine (label : String) (a : Association) : String :=
  s!"    - {a.name} -> {a.target} [{label} {a.shape.name}, {arityWord a.arity}]\n"

/-- The lines of the associations of an entity. -/
def associationLines (c : Classification) : List String :=
  (if c.size = 0 then [] else
    "  Associations:\n" ::
      (c.implicit.listed.map (associationLine "implicit") ++
        c.explicit.listed.map (associationLine "explicit"))) ++
  c.unsupported.map fun (name, kind) => s!"    - {name} skipped (type {kind})\n"

/-- The line of the foreign keys that mutations take. -/
def mutationLines (c : Classification) : List String :=
  if c.mutationAttributes.isEmpty then []
  else [s!"  Mutation attributes: {c.mutationAttributes}\n"]

/-- The paragraph of an entity. -/
def entityText (e : Entity) : String :=
  String.join <|
    [s!"Model: {e.name} ({e.storage.name})\n", s!"  Table: {e.table}\n",
      s!"  Attributes: {e.attributes.flat}\n",
      "  String attributes: " ++ ", ".intercalate e.attributes.texts ++ "\n"] ++
    associationLines e.associations ++ mutationLines e.associations ++ ["\n"]

/-- The paragraph of a definition file. -/
def loadedText (policy : Policy) (l : Loaded) : String :=
  match l.entity policy with
  | .ok e => entityText e
  | .error f => s!"{f.path.text}: {f.failure.message}\n\n"

/-- The listing of a batch. -/
def batchText (policy : Policy) (batch : List Loaded) : String :=
  s!"Parsed {batch.length} definitions:\n\n" ++ String.join (batch.map (loadedText policy))

/-! ## Runs -/

/-- The line of something that failed. -/
def failureLine (path : Path) (f : Failure) : String := s!"  FAILED {path.text}: {f.message}\n"

/-- The summary of a run. -/
def summary (s : Settings) (r : Report) : String :=
  let verb := if s.dryRun then "Would write" else "Wrote"
  s!"{verb} {r.written.length} files for {r.entities.length} entities into {s.outputDir.text}\n" ++
  String.join (r.entityFailures.map fun f => failureLine f.path f.failure) ++
  String.join (r.artifactFailures.map fun f => failureLine f.path f.failure)

end Scaffold.CommandLine
