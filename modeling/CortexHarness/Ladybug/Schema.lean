import Mathlib.Data.List.Basic

/-!
# The typed schema of the embedded graph

Model of `code-tiny/tools/graph/schema/ladybug_schema.py`, as far as the driver's node writes and
clean-ups read it: which columns the table of a label has, and of which type.

`validate_cypher_identifier` accepts every label that a query pattern can name and is left out, as
are the relationship tables and the texts of the DDL statements.
-/

namespace CortexHarness.Ladybug

/-! ## Columns -/

/-- The types that `column_type` returns. -/
inductive ColumnType where
  | string
  | stringList
  | int64
  | double
  | bool
  deriving DecidableEq

/-- `_INT64_PROPERTIES` -/
def int64Properties : List String :=
  ["start_line", "end_line", "start_byte", "end_byte", "arity", "line_number", "count",
   "chunk_index", "start_char", "end_char", "order", "depth"]

/-- `_DOUBLE_PROPERTIES` -/
def doubleProperties : List String :=
  ["confidence", "cohesion_score", "coupling_score", "score"]

/-- `_BOOL_PROPERTIES` -/
def boolProperties : List String :=
  ["exported", "is_public_api", "external", "builtin", "is_global", "is_shared", "topology_owned",
   "active", "is_public", "is_abstract", "generated", "redacted", "secret_bearing", "canonical",
   "is_static"]

/-- `_JSON_PROPERTIES` -/
def jsonProperties : List String :=
  ["imports", "exports", "jsx_tags", "jsx_components", "members", "base_interfaces", "parameters",
   "param_schema", "props", "coordinate", "config", "fingerprints", "call_data"]

/-- `_LIST_PROPERTIES` -/
def listProperties : List String :=
  ["frameworks", "build_systems", "languages", "source_roots"]

/-- `column_type` -/
def columnType (propertyName : String) : ColumnType :=
  if propertyName ∈ listProperties then .stringList
  else if propertyName ∈ int64Properties then .int64
  else if propertyName ∈ doubleProperties then .double
  else if propertyName ∈ boolProperties then .bool
  else .string

/-! ## Labels -/

/-- `CORE_NODE_COLUMNS` -/
def coreNodeColumns : List String :=
  ["name", "file_path", "start_line", "end_line", "code", "comment", "summary", "note",
   "project_id", "project_id_normalized", "project_name", "language", "repo", "build_system",
   "updated_at"]

/-- `FRAMEWORK_NODE_COLUMNS` -/
def frameworkNodeColumns : List String :=
  ["name", "symbol_id", "semantic_id", "module_id", "framework", "generation_id", "project_id",
   "project_id_normalized", "project_name", "language", "repo", "build_system", "source_file",
   "updated_at"]

/-- `_NODE_SPECS`: the primary key and the extra columns of a label. -/
def nodeSpecs : List (String × String × List String) :=
  [("File", "id",
     ["path", "node_type", "imports", "exports", "jsx_tags", "jsx_components", "package_name"]),
   ("Project", "project_id", ["node_type", "root", "qualified_name", "slug", "created_at", "id"]),
   ("Package", "id", ["package_name", "qualified_name"]),
   ("Namespace", "id", ["qualified_name", "package_name"]),
   ("Class", "id",
     ["node_type", "qualified_name", "kind", "package_name", "visibility", "is_public_api",
      "visibility_source", "export_evidence", "signature", "module_id"]),
   ("Type", "id", ["qualified_name", "kind", "package_name", "exported", "module_id"]),
   ("Control", "id",
     ["qualified_name", "kind", "scope_name", "class_name", "line_number", "package_name"]),
   ("Function", "id",
     ["node_type", "qualified_name", "kind", "class_name", "package_name", "scope_name",
      "start_byte", "end_byte", "arity", "exported", "visibility", "is_public_api",
      "visibility_source", "export_evidence", "signature", "external", "builtin", "react_role",
      "middleware_kind", "module_id", "symbol_id"]),
   ("Property", "id",
     ["qualified_name", "kind", "scope_name", "class_name", "package_name", "parameters",
      "return_type", "exported"]),
   ("Event", "id",
     ["qualified_name", "kind", "scope_name", "class_name", "package_name", "parameters",
      "exported", "namespace", "payload_example", "payload_schema", "payload_type",
      "payload_version", "source", "version"]),
   ("Interface", "id", ["qualified_name", "kind", "base_interfaces", "module_id"]),
   ("Enum", "id",
     ["qualified_name", "kind", "scope_name", "class_name", "package_name", "members"]),
   ("Constant", "id",
     ["qualified_name", "kind", "scope_name", "class_name", "package_name", "line_number",
      "value", "type_name"]),
   ("Variable", "id",
     ["qualified_name", "kind", "scope_name", "class_name", "package_name", "line_number",
      "type_name", "is_global", "is_shared", "is_static"]),
   ("FunctionType", "id", ["type_signature"]),
   ("Field", "id", ["qualified_name", "scope_name", "type_signature"]),
   ("Alias", "id", ["qualified_name", "kind", "target_name"]),
   ("Template", "id", []),
   ("Navigator", "id", ["var_name", "nav_type", "factory", "param_list_ref"]),
   ("RouteParam", "id", ["param_list_name", "route", "type_str"]),
   ("Workflow", "workflow_id",
     ["name", "domain", "description", "confidence", "entrypoint_id", "language", "project",
      "kind", "id"]),
   ("CallSite", "site_id", ["id"]),
   ("BuildConfiguration", "config_fingerprint",
     ["project_id", "project_id_normalized", "tu_key", "id"]),
   ("SemanticCoverage", "fingerprint", ["tu_key", "project_id", "project_id_normalized", "id"]),
   ("Repository", "name", ["node_type", "project_id", "project_id_normalized", "id", "created_at"]),
   ("AspNetAnalysisState", "id",
     ["project_id", "module_id", "framework", "active_generation", "snapshot_checksum",
      "coverage_status"]),
   ("ServletJspAnalysisState", "id",
     ["project_id", "module_id", "framework", "active_generation", "snapshot_checksum",
      "coverage_status"]),
   ("ProjectModule", "id",
     ["qualified_name", "path", "build_file", "topology_owned", "module_path", "kind",
      "confidence", "diagnostics", "frameworks", "build_systems", "languages", "source_roots"]),
   ("BuildDescriptor", "id",
     ["topology_owned", "module_path", "canonical", "descriptor_type", "diagnostics", "framework",
      "frameworks", "freshness", "generated", "parse_depth", "parser", "redacted", "role",
      "secret_bearing", "status"]),
   ("Dependency", "id", ["coordinate", "kind", "topology_owned"]),
   ("GrpcEndpoint", "id", ["topology_owned", "module_path"]),
   ("GrpcService", "id", ["topology_owned", "module_path"]),
   ("FrameworkInstance", "id",
     ["topology_owned", "module_path", "confidence", "diagnostics", "dimensions", "evidence",
      "facts", "framework", "version"]),
   ("GradleModule", "id", ["application_id", "module_path", "module_type", "namespace"]),
   ("GradleDependency", "id", ["artifact", "coordinate", "group", "version"]),
   ("Directory", "id", ["path", "depth"]),
   ("AndroidManifest", "id", ["package_name", "path", "module_path"]),
   ("AndroidComponent", "id",
     ["class_name", "component_type", "direct_boot_aware", "enabled", "exported",
      "intent_actions", "intent_categories", "intent_data", "path", "permission", "process",
      "target_activity"]),
   ("AndroidHandlerMessage", "id", ["token"]),
   ("AndroidIntentAction", "id", ["action"]),
   ("AndroidNavRoute", "id", ["route"]),
   ("AndroidResource", "id", ["qualifier", "res_type"]),
   ("InfraNode", "id",
     ["type", "description", "module_path", "cohesion_score", "coupling_score", "status",
      "created_at"]),
   ("Document", "id",
     ["title", "name", "content", "doc_type", "created_at", "project_id", "project_id_normalized"]),
   ("Paragraph", "__pk",
     ["source_id", "paragraph_id", "text", "short", "created_at", "project_id",
      "project_id_normalized", "id"]),
   ("Entity", "id", ["name", "type", "name_norm", "project_id", "project_id_normalized"])]

/-- `_FRAMEWORK_LABEL_SETS` -/
def frameworkLabels : List String :=
  ["SpringModule", "SpringApplication", "SpringConfiguration", "SpringBean", "JpaEntity",
   "TransactionBoundary", "MessageDestination", "ScheduledTask", "AsyncBoundary",
   "ApplicationEvent", "SecurityFilterChain", "SecurityRule", "Authority", "Aspect", "Advice",
   "Pointcut", "ValidationConstraint", "CacheRegion", "CacheOperation", "ApiEndpoint", "Controller",
   "Service", "DataRepository", "Database", "Middleware", "MessageEndpoint", "MyBatisModule",
   "MybatisModule", "MyBatisMapper", "MyBatisStatement", "MyBatisResultMap", "MyBatisSql",
   "MyBatisParam", "MyBatisSelect", "MyBatisInsert", "MyBatisUpdate", "MyBatisDelete",
   "MyBatisProvider", "MyBatisAssociation", "MyBatisCollection", "MyBatisDiscriminator",
   "MyBatisTypeHandler", "MyBatisDataSource", "MyBatisTransactionManager", "MyBatisPlugin",
   "MyBatisCache", "DatabaseTable", "DatabaseColumn", "HttpEndpoint", "Route", "Action",
   "RazorPage", "PageHandler", "WebFormPage", "HttpHandler", "HttpModule", "Filter", "Result",
   "View", "Layout", "PartialView", "Repository", "Model", "ViewModel", "ValidationRule",
   "ConfigurationKey", "SessionState", "AuthenticationScheme", "AuthorizationPolicy",
   "ServletJspModule", "WebDescriptor", "Servlet", "Listener", "ServletMapping", "FilterMapping",
   "JSPView", "JspExpression", "JspTag", "StateSlot", "LifecycleEvent", "ErrorPage", "WelcomePage",
   "SecurityConstraint", "WebTarget", "WebConfiguration", "ApiEndpoint2"]

/-- `_core` -/
def core (extend : List String) : List String :=
  coreNodeColumns ++ extend.filter fun c => c ∉ coreNodeColumns

/-- `node_spec`: the primary key and the columns of a label. -/
def nodeSpec (label : String) : String × List String :=
  match nodeSpecs.find? fun spec => spec.1 = label with
  | some (_, pk, extras) =>
    let columns := core extras
    (pk, if pk ∉ columns ∧ pk ≠ "id" then pk :: columns else columns)
  | none => if label ∈ frameworkLabels then ("id", frameworkNodeColumns) else ("id", core [])

/-- The keys that a row and a read node use for themselves. -/
def reservedKeys : List String := ["__spill", "_properties", "_ID", "_LABEL"]

/-- What the driver relies on of the tables above: a primary key is a plain text, and neither it nor
a column is a reserved key. -/
def SpecSound (spec : String × List String) : Prop :=
  spec.1 ∉ jsonProperties ∧ columnType spec.1 = .string ∧
    ∀ k ∈ reservedKeys, k ≠ spec.1 ∧ k ∉ spec.2

instance (spec : String × List String) : Decidable (SpecSound spec) :=
  inferInstanceAs (Decidable (_ ∧ _ ∧ _))

/-- **Every label has a sound table.** -/
theorem nodeSpec_sound (label : String) : SpecSound (nodeSpec label) := by
  have htable : ∀ spec ∈ nodeSpecs, SpecSound (spec.2.1,
      if spec.2.1 ∉ core spec.2.2 ∧ spec.2.1 ≠ "id" then spec.2.1 :: core spec.2.2
      else core spec.2.2) := by
    decide +kernel
  unfold nodeSpec
  split
  · next pk extras hfind => exact htable _ (List.mem_of_find?_eq_some hfind)
  · split <;> decide +kernel

end CortexHarness.Ladybug
