import XorqDatafusion.Context.Schedules
import XorqDatafusion.Context.Session

/-! `register_csv` and `register_parquet`: what they return, and what they leave behind. -/
namespace XorqDatafusion.Context

open Fallible Transition

variable {F S P : Type}

inductive FileCompressionType
  | gzip
  | bzip2
  | xz
  | zstd
  | uncompressed
deriving DecidableEq

structure CsvReadOptions (S : Type) where
  hasHeader : Bool
  delimiter : UInt8
  schemaInferMaxRecords : ℕ
  fileExtension : String
  fileCompressionType : FileCompressionType
  schema : Option S

/-- The only type that `convert_table_partition_cols` yields. -/
inductive DataType
  | utf8
deriving DecidableEq

structure ParquetReadOptions (S : Type) where
  tablePartitionCols : List (String × DataType)
  parquetPruning : Bool
  fileExtension : String
  skipMetadata : Bool
  schema : Option S

/-- The two instances of `ReadOptions` that `_register_types` is called with. -/
inductive ReadOptions (S : Type)
  | csv (options : CsvReadOptions S)
  | parquet (options : ParquetReadOptions S)

namespace ReadOptions

def format : ReadOptions S → ConfigFileType
  | .csv _ => .csv
  | .parquet _ => .parquet

def fileExtension : ReadOptions S → String
  | .csv options => options.fileExtension
  | .parquet options => options.fileExtension

def schema : ReadOptions S → Option S
  | .csv options => options.schema
  | .parquet options => options.schema

end ReadOptions

/-- What DataFusion does with files: listing options come from the read options and the session's
format options; `inferSchema` reads the files at a URL. -/
structure Files (F S P : Type) where
  outside : Outside F
  compression : String → Option FileCompressionType
  inferSchema : ReadOptions S → F → TableUrl → Store → Except ContextError S
  listingTable : List TableUrl → ReadOptions S → F → S → Except ContextError P

/-- A Python `ValueError`, with a text of its own or with that of an error of DataFusion. -/
inductive CallError
  | value (message : String)
  | datafusion (error : ContextError)
deriving DecidableEq

/-- The optional arguments of `register_csv`. -/
structure CsvArgs (S : Type) where
  schema : Option S := none
  hasHeader : Bool := true
  delimiter : String := ","
  schemaInferMaxRecords : ℕ := 1000
  fileExtension : String := ".csv"
  fileCompressionType : Option String := none

/-- The optional arguments of `register_parquet`. -/
structure ParquetArgs (S : Type) where
  tablePartitionCols : List (String × String) := []
  parquetPruning : Bool := true
  fileExtension : String := ".parquet"
  skipMetadata : Bool := true
  schema : Option S := none

def parseFileCompressionType (files : Files F S P) (fileCompressionType : Option String) :
    Except CallError FileCompressionType :=
  match files.compression (fileCompressionType.getD "") with
  | some compression => .ok compression
  | none => .error (.value "file_compression_type must one of: gzip, bz2, xz, zstd")

def convertTablePartitionCols (cols : List (String × String)) :
    Except CallError (List (String × DataType)) :=
  cols.mapM fun (name, ty) => match ty with
    | "string" => .ok (name, .utf8)
    | _ => .error (.value s!"Unsupported data type '{ty}' for partition column")

def csvOptions (files : Files F S P) (args : CsvArgs S) : Except CallError (ReadOptions S) :=
  match args.delimiter.toUTF8.data.toList with
  | [delimiter] => do
    let fileCompressionType ← parseFileCompressionType files args.fileCompressionType
    return .csv {
      hasHeader := args.hasHeader, delimiter
      schemaInferMaxRecords := args.schemaInferMaxRecords
      fileExtension := args.fileExtension, fileCompressionType, schema := args.schema }
  | _ => .error (.value "Delimiter must be a single character")

def parquetOptions (args : ParquetArgs S) : Except CallError (ReadOptions S) := do
  let tablePartitionCols ← convertTablePartitionCols args.tablePartitionCols
  return .parquet {
    tablePartitionCols, parquetPruning := args.parquetPruning
    fileExtension := args.fileExtension, skipMetadata := args.skipMetadata, schema := args.schema }

/-- The check of a path against the extension of the listing options, `ends_with` on their texts. -/
def checkExtension (fileExtension : String) (url : TableUrl) : Except ContextError Unit :=
  if fileExtension.toList <:+ url.text.toList ∨ url.collection then .ok ()
  else .error (.execution
    s!"File path '{url.text}' does not match the expected extension '{fileExtension}'")

/-- `get_resolved_schema`: an explicit schema is taken as it is, and no file is read. -/
def getResolvedSchema (files : Files F S P) (runtime : Runtime F) (options : ReadOptions S)
    (url : TableUrl) : Except ContextError S :=
  match options.schema with
  | some schema => .ok schema
  | none => match runtime.stores url.key with
    | none => .error (.outside s!"No suitable object store found for {url.text}")
    | some store => files.inferSchema options runtime.tableOptions.formatOptions url store

/-- The part of `_register_types` before it registers the table it has made. -/
def listingTable (files : Files F S P) (runtime : Runtime F) (paths : List String)
    (options : ReadOptions S) : Except ContextError P := do
  match ← paths.mapM files.outside.parse with
  | [] => .error (.execution "No table paths were provided")
  | url :: rest => do
    let _ ← (url :: rest).mapM (checkExtension options.fileExtension)
    let schema ← getResolvedSchema files runtime options url
    files.listingTable (url :: rest) options runtime.tableOptions.formatOptions schema

/-- `_register_types`. -/
def registerTypes (files : Files F S P) (σ : Session F P) (name : String) (paths : List String)
    (options : ReadOptions S) : Except ContextError (Session F P) := do
  let table ← listingTable files σ.runtime paths options
  σ.registerTable (.bare name) table

/-- What the call does once its tasks are joined; what they returned is dropped. -/
def afterJoin (files : Files F S P) (σ : Session F P) (name : String) (paths : List String)
    (options : ReadOptions S) : Session F P × Except CallError Unit :=
  match registerTypes files σ name paths options with
  | .ok σ => (σ, .ok ())
  | .error e => (σ, .error (.datafusion e))

/-- How a call may end, with the set of paths whose tasks failed: the tasks run in any order. -/
inductive Ends (files : Files F S P) (σ : Session F P) (name : String) (paths : List String)
    (storageOptions : List (String × String)) :
    Except CallError (ReadOptions S) → Set (Fin paths.length) → Session F P × Except CallError Unit →
      Prop
  | rejected (e : CallError) : Ends files σ name paths storageOptions (.error e) ∅ (σ, .error e)
  | joined {options : ReadOptions S} {q : Runtime F × (Fin paths.length → Registration F)} :
      (registrations files.outside options.format storageOptions paths.get σ.runtime).Reachable q →
      Finished q →
      Ends files σ name paths storageOptions (.ok options) (failing q)
        (afterJoin files { σ with runtime := q.1 } name paths options)

def RegisterCsv (files : Files F S P) (σ : Session F P) (name : String) (paths : List String)
    (args : CsvArgs S) (storageOptions : List (String × String)) :
    Set (Fin paths.length) → Session F P × Except CallError Unit → Prop :=
  Ends files σ name paths storageOptions (csvOptions files args)

def RegisterParquet (files : Files F S P) (σ : Session F P) (name : String) (paths : List String)
    (args : ParquetArgs S) (storageOptions : List (String × String)) :
    Set (Fin paths.length) → Session F P × Except CallError Unit → Prop :=
  Ends files σ name paths storageOptions (parquetOptions args)

end XorqDatafusion.Context
