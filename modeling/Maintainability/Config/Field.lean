/-
The fields of a configuration: their names, what kind of value the environment gives them, and
their values when nothing is said.
-/
import Maintainability.Config.Value

namespace Maintainability

/-- A field of a configuration. -/
inductive Field where
  | language
  | excludePatterns
  | maxFileSizeMb
  | maxFiles
  | allowHiddenFiles
  | workers
  | parallelThreshold
  | timeoutSeconds
  | verbosity
  | serverHost
  | serverPort
  | maxUploadMb
  | maxTotalMb
  deriving DecidableEq, Repr

namespace Field

/-- All fields, in order. -/
def all : List Field :=
  [.language, .excludePatterns, .maxFileSizeMb, .maxFiles, .allowHiddenFiles, .workers,
    .parallelThreshold, .timeoutSeconds, .verbosity, .serverHost, .serverPort, .maxUploadMb,
    .maxTotalMb]

theorem mem_all (f : Field) : f ∈ all := by cases f <;> decide

/-- The name of a field, as files and callers write it. -/
def name : Field → String
  | .language => "language"
  | .excludePatterns => "exclude_patterns"
  | .maxFileSizeMb => "max_file_size_mb"
  | .maxFiles => "max_files"
  | .allowHiddenFiles => "allow_hidden_files"
  | .workers => "workers"
  | .parallelThreshold => "parallel_threshold"
  | .timeoutSeconds => "timeout_seconds"
  | .verbosity => "verbosity"
  | .serverHost => "server_host"
  | .serverPort => "server_port"
  | .maxUploadMb => "max_upload_mb"
  | .maxTotalMb => "max_total_mb"

/-- The name of the environment variable of a field. -/
def variableName (f : Field) : String :=
  "CODECOMPLEXITY_" ++ String.ofList (f.name.toList.map Char.toUpper)

/-- The value of a field when nothing is said. -/
def default : Field → Value
  | .language => .str "java"
  | .excludePatterns =>
    .list (["target/*", "build/*", "out/*", "dist/*", "node_modules/*", "vendor/*", "venv/*",
      ".venv/*", "__pycache__/*", "*.generated.*"].map .str)
  | .maxFileSizeMb => .real 10.0
  | .maxFiles => .int 10000
  | .allowHiddenFiles => .bool false
  | .workers => .null
  | .parallelThreshold => .int 10
  | .timeoutSeconds => .null
  | .verbosity => .str "normal"
  | .serverHost => .str "127.0.0.1"
  | .serverPort => .int 8080
  | .maxUploadMb => .real 50.0
  | .maxTotalMb => .real 200.0

end Field

end Maintainability
