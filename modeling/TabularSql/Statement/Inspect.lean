import TabularSql.Statement.Compile
import TabularSql.Text.Printable

/-!
# Inspection texts

What a log shows of compiler options and of a compiler: records with named fields, and constructors
with their argument in parentheses. A record that does not show all of its fields ends in two dots.
-/

namespace TabularSql

set_option autoImplicit false

namespace Inspect

def field (name value : String) : String := name ++ ": " ++ value

def record (name : String) (fields : List String) : String :=
  name ++ " \x7b " ++ joinTexts ", " fields ++ " \x7d"

def openRecord (name : String) (fields : List String) : String :=
  record name (fields ++ [".."])

def tagged (name argument : String) : String := name ++ "(" ++ argument ++ ")"

def list (items : List String) : String := "[" ++ joinTexts ", " items ++ "]"

def truth : Bool → String
  | true => "true"
  | false => "false"

def option {α : Type} (inspect : α → String) : Option α → String
  | none => "None"
  | some value => tagged "Some" (inspect value)

def word (value : UInt64) : String := Number.decimal value.toNat

end Inspect

open Inspect

def TableId.inspect (table : TableId) : String :=
  record "IdAndVersion" [field "id" (word table.number), field "version" (option word table.version)]

def TableKind.inspect : TableKind → String
  | .table => "Table"
  | .entityView => "EntityView"
  | .submissionView => "SubmissionView"
  | .dataset => "Dataset"
  | .materializedView => "MaterializedView"
  | .virtualTable => "VirtualTable"

def SqlContext.inspect : SqlContext → String
  | .query => "Query"
  | .build => "Build"

mutual

def IndexDescription.inspect : IndexDescription → String
  | .table id => tagged "Table" (record "TableIndexDescription" [field "id" id.inspect])
  | .view id kind =>
      tagged "View" (record "ViewIndexDescription"
        [field "id" id.inspect, field "table_type" kind.inspect])
  | .materializedView id dependencies =>
      tagged "MaterializedView" (record "MaterializedViewIndexDescription"
        [field "id" id.inspect, field "dependencies" (list (IndexDescription.inspectAll dependencies))])
  | .virtualTable id definingText =>
      tagged "VirtualTable" (openRecord "VirtualTableIndexDescription"
        [field "id" id.inspect, field "defining_sql" (Text.inspect definingText)])

def IndexDescription.inspectAll : List IndexDescription → List String
  | [] => []
  | description :: rest => description.inspect :: IndexDescription.inspectAll rest

end

def CompilerOptions.inspect (options : CompilerOptions) : String :=
  record "TranslatorConfig"
    [field "has_schema_provider" (truth options.schemas.isSome),
     field "index_description" (option IndexDescription.inspect options.description),
     field "user_id" (option (fun id => Number.signedDecimal id.toInt) options.userId),
     field "context" options.context.inspect,
     field "include_entity_etag" (truth options.etag),
     field "max_bytes_per_page" (option word options.maxBytes),
     field "override_offset" (option word options.offset),
     field "override_limit" (option word options.limit)]

def Compiler.inspect (compiler : Compiler) : String :=
  openRecord "QueryTranslator"
    [field "index_description" compiler.description.inspect,
     field "user_id" (Number.signedDecimal compiler.userId.toInt),
     field "context" compiler.context.inspect]

end TabularSql
