import Motte.Agent.Session

/-! The declarations of the native tools, and the checks of their arguments. -/
namespace Motte.Agent
open Foundation Gate

/-- The declared parameters of a tool: an object without further members. -/
structure ToolSchema where
  /-- Name, type and description. -/
  properties : List (String × String × String)
  required : List String := []

/-- A function that is offered to the model. -/
structure ToolDeclaration where
  name : String
  description : String
  parameters : ToolSchema

def readFileSchema : ToolSchema where
  properties := [("path", "string", "Relative path inside the workspace")]
  required := ["path"]

def writeFileSchema : ToolSchema where
  properties := [("path", "string", "Relative path inside the workspace"), ("content", "string", "Full file content to write")]
  required := ["path", "content"]

def listFilesSchema : ToolSchema where
  properties := [("prefix", "string", "Optional relative directory prefix")]

/-- `TOOL_DECLARATIONS` -/
def toolDeclarations : List ToolDeclaration := [
  { name := "read_file", description := "Read a UTF-8 text file from the case workspace.", parameters := readFileSchema },
  { name := "write_file", description := "Create or overwrite a text file in the case workspace."
    parameters := writeFileSchema },
  { name := "list_files", description := "List workspace files under an optional prefix.", parameters := listFilesSchema }]

def declarationOf (name : String) : Option ToolDeclaration := toolDeclarations.find? (·.name = name)

/-- What the reader of JSON gives for a text: a value, or why there is none. -/
abbrev Loads := String → Except String Value

/-- `parse_tool_arguments`: the members of the arguments, or the error that is told to the model. -/
def parseToolArguments (loads : Loads) (raw : Value) : Except String (List (String × Value)) :=
  match raw with
  | .null => .ok []
  | .obj members => .ok members
  | .str s =>
    if s = "" then .ok []
    else
      match loads s with
      | .error e => .error s!"tool arguments are not valid JSON: {e}"
      | .ok (.obj members) => .ok members
      | .ok _ => .error "tool arguments must decode to a JSON object"
  | _ => .error "tool arguments must be a JSON object or string"

/-- Whether a value is of a declared type; a type that is not known is not checked. -/
def hasType (expected : String) (v : Value) : Bool :=
  match expected, v with
  | "string", .str _ => true
  | "string", _ => false
  | "number", .int _ | "number", .float _ => true
  | "number", _ => false
  | "integer", .int _ => true
  | "integer", _ => false
  | "boolean", .bool _ => true
  | "boolean", _ => false
  | "object", .obj _ => true
  | "object", _ => false
  | "array", .arr _ => true
  | "array", _ => false
  | _, _ => true

/-- `validate_tool_arguments` -/
def validateToolArguments (arguments : List (String × Value)) (schema : ToolSchema) : List String :=
  (schema.required.filter (fun name => !(arguments.map (·.1)).contains name)).map
      (fun name => s!"missing required argument: {name}") ++
    (arguments.filter (fun a => !(schema.properties.map (·.1)).contains a.1)).map (fun a => s!"unknown argument: {a.1}") ++
    arguments.filterMap (fun a =>
      match schema.properties.lookup a.1 with
      | none => none
      | some (expected, _) => if hasType expected a.2 then none else some s!"argument {a.1} must be {expected}")

end Motte.Agent
