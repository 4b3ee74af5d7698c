import RpcForge.Client.Plan
import RpcForge.Code.Writer
import RpcForge.Text.Blank

/-!
# The page of a package

What a package tells its readers: how to install it, how to make a client, and under which call of
the client each operation is found.
-/

namespace RpcForge.Readme

/-- A row of the table of operations. -/
structure Row where
  /-- The name of the operation. -/
  method : String
  /-- The names that lead to the call from the client on. -/
  path : List String
deriving DecidableEq, Repr

/-- The rows for the operations of a group. -/
def groupRows (identifier : String → String) (group : Group) : List Row :=
  group.operations.map fun (key, operation) ↦
    { method := operation.name, path := group.path.map identifier ++ [identifier key] }

/-- The rows for all operations of a tree. -/
def rows (identifier : String → String) (root : Group) : List Row :=
  root.descendants.flatMap (groupRows identifier)

/-- A row as text. -/
def rowText (row : Row) : String :=
  "| `" ++ row.method ++ "` | `client." ++ ".".intercalate row.path ++ "(...)` |"

/-- A page. -/
structure Page where
  /-- The name of the target language. -/
  language : String
  /-- The title of the interface. -/
  title : String
  /-- The version of the interface. -/
  version : String
  /-- A description. -/
  description : Option String
  /-- The command that installs the package. -/
  install : String
  /-- The name of the language of the example. -/
  fence : String
  /-- The lines of the example. -/
  usage : List Code
  /-- What is to say behind the example. -/
  remark : Option String
  /-- The rows of the table of operations. -/
  rows : List Row

/-- The table of operations, if there are any. -/
def tableCode (page : Page) : List Code :=
  if page.rows.isEmpty then []
  else
    [.blank, .line "## Methods", .blank,
      .line ("| RPC method | " ++ page.language ++ " call |"),
      .line "| --- | --- |"] ++
    page.rows.map fun row ↦ .line (rowText row)

/-- A page as code. -/
def pageCode (page : Page) : List Code :=
  [.line ("# " ++ page.title ++ " " ++ page.language ++ " Client"),
    .blank,
    .line ((page.description.map Text.trim).getD (page.title ++ " RPC client.")),
    .blank,
    .line ("Generated from version " ++ page.version ++ " of the OpenRPC document."),
    .blank,
    .line "## Install",
    .blank,
    .line "```shell",
    .line page.install,
    .line "```",
    .blank,
    .line "## Usage",
    .blank,
    .line ("```" ++ page.fence)] ++
  page.usage ++
  [.line "```"] ++
  (page.remark.map fun remark ↦ [Code.blank, Code.line remark]).getD [] ++
  tableCode page

/-- A page as text. -/
def render (page : Page) : String :=
  Code.render "" (pageCode page)

end RpcForge.Readme
