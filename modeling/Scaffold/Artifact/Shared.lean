import Scaffold.Source

/-!
# Shared files

  The two files that are the same for every set of entities: the types that
  all schemas refer to, and the loader of the models.
-/

namespace Scaffold.Shared

open Source

/-- The types that all schemas refer to. -/
def schemaCommons : String :=
  (lines ["module.exports = `"] ++ gap ++
    indent (spaced [
      block "enum Operator " (lines ["like", "or", "and", "eq", "between", "in"]),
      block "enum Order " (lines ["DESC", "ASC"]),
      block "input typeValue " (lines ["type: String", "value: String!"]),
      block "input paginationInput " (lines ["limit: Int", "offset: Int"])]) ++
    gap ++ lines ["`;"]).text 2

/-- The loader of the models, which also wires their associations. -/
def modelsIndex : String :=
  (lines ["const fs = require('fs');", "const path = require('path');",
      "const sequelize = require('../connection');"] ++ gap ++
    lines ["const models = \x7b\x7d;"] ++ gap ++
    lines ["fs.readdirSync(__dirname)"] ++
    indent (block ".filter(function(file) "
        (lines ["return (file.indexOf('.') !== 0) && (file !== 'index.js') && (file.slice(-3) === '.js');"])
        ")" ++
      block ".forEach(function(file) "
        (lines ["const model = require(path.join(__dirname, file)).init(sequelize, sequelize.Sequelize);",
          "models[path.basename(file, '.js')] = model;"]) ");") ++ gap ++
    block "Object.keys(models).forEach(function(modelName) "
      (block "if (models[modelName].associate) "
        (lines ["models[modelName].associate(models);"])) ");" ++ gap ++
    lines ["module.exports = models;"]).text 2

end Scaffold.Shared
