import RpcForge.Package.File
import RpcForge.Package.Readme
import RpcForge.Package.TypeScriptModels

/-!
# TypeScript packages

The files of a TypeScript package: the source with the clients, the one with the models if there are
any, the one that offers both, the settings of the tools, and a page for its readers.
-/

namespace RpcForge.TypeScriptPackage

open RpcForge.Json

/-- The members that a client has from the class that it extends. -/
def clientMembers : List String := ["call", "close", "connect", "constructor", "headers", "url"]

/-- The members that the class of a group has by itself. -/
def groupMembers : List String := ["constructor", "rpc"]

/-- The source that offers the others. -/
def indexText (plan : Plan) : String :=
  "export * from \"./client.js\";\n" ++
    if plan.hasModels then "export * from \"./models.js\";\n" else ""

/-- The clients of a package, unless members of a group have the same name. -/
def clientFiles (plan : Plan) : Except GenerationError (List SourceFile) :=
  (plan.root.checkTree Naming.camel clientMembers groupMembers).map fun _ ↦
    [{ path := ["src", "client.ts"]
       contents := TypeScriptClient.render (TypeScriptClient.sourceOf plan) },
     { path := ["src", "index.ts"], contents := indexText plan }]

/-- The models of a package. -/
def modelFiles (plan : Plan) : List SourceFile :=
  if plan.hasModels then
    [{ path := ["src", "models.ts"]
       contents := TypeScriptModels.render (TypeScriptModels.sourceOf plan) }]
  else []

/-- The description of the package. -/
def manifest (plan : Plan) : Value :=
  let info := plan.interface.info
  .object
    [("name", .string plan.distributionName),
     ("version", .string info.version),
     ("description", .string (info.title ++ " RPC Client.")),
     ("type", .string "module"),
     ("main", .string "dist/index.js"),
     ("types", .string "dist/index.d.ts"),
     ("files", .array [.string "dist"]),
     ("scripts", .object [("build", .string "tsc")]),
     ("author", .string (info.contactName ++ " <" ++ info.contactEmail ++ ">")),
     ("license", .string (info.license.getD "UNLICENSED")),
     ("dependencies", .object [("jsonrpc2-tsclient", .string "^1.3.9")]),
     ("devDependencies",
       .object [("prettier", .string "^3.0.0"), ("typescript", .string "^5.0.0")])]

/-- The settings of the compiler. -/
def compilerSettings : Value :=
  .object
    [("compilerOptions", .object
       [("outDir", .string "dist"),
        ("rootDir", .string "src"),
        ("target", .string "es2020"),
        ("module", .string "es2020"),
        ("moduleResolution", .string "node"),
        ("declaration", .bool true),
        ("esModuleInterop", .bool true),
        ("skipLibCheck", .bool true)]),
     ("include", .array [.string "src"])]

/-- The settings of the formatter. -/
def formatterSettings : Value :=
  .object
    [("tabWidth", .ofInt 2),
     ("semi", .bool true),
     ("singleQuote", .bool false),
     ("trailingComma", .string "all")]

/-- The client of the example: the one for the first transport. -/
def exampleClass (plan : Plan) : String :=
  TypeScriptClient.clientClassName plan (plan.transports.head?.getD .http)

/-- The page of a package. -/
def page (plan : Plan) : Readme.Page where
  language := "TypeScript"
  title := plan.interface.info.title
  version := plan.interface.info.version
  description := plan.interface.info.description
  install := "npm install " ++ plan.distributionName
  fence := "typescript"
  usage :=
    [TypeScriptClient.importLine [exampleClass plan] plan.distributionName,
      .blank,
      .line ("const client = new " ++ exampleClass plan ++ "();")]
  remark := none
  rows := Readme.rows Naming.camel plan.root

/-- A value as the text of a file. -/
def jsonText (v : Value) : String :=
  v.pretty ++ "\n"

/-- The files that describe the package. -/
def projectFiles (plan : Plan) : List SourceFile :=
  [{ path := ["package.json"], contents := jsonText (manifest plan) },
   { path := ["tsconfig.json"], contents := jsonText compilerSettings },
   { path := [".prettierrc"], contents := jsonText formatterSettings },
   { path := [".prettierignore"], contents := "dist\nnode_modules\n" },
   { path := ["README.md"], contents := Readme.render (page plan) }]

/-- The commands of a stage. -/
def tools : ToolStage → List Tool
  | .format => [{ program := "npx", args := ["prettier", "--write", "src"] }]
  | .build =>
    [{ program := "npm", args := ["install"] }, { program := "npm", args := ["run", "build"] }]

end RpcForge.TypeScriptPackage
