import Componentry.Component
import Componentry.Path
import Componentry.Toml.Codec
import Componentry.Toml.Reader
import Componentry.Toml.Representable

/-!
# Project descriptors

A descriptor is what a project says about itself: its coordinates, its attribute schema, its
configurations with the versions locked for them, external components with rules and replacements
for them, the other projects of the build, the transforms there are, and where the artifacts of
modules lie. All of it is plain data; nothing here is checked beyond its form.

Each section has a structure and a list of fields. `Descriptor.codec` reads a whole descriptor from
a TOML table. Names are written in kebab case, and unknown names are refused everywhere.
-/

namespace Componentry

open Toml (Codec Fields)
open Toml.Fields (required optional defaulted)

/-- Attributes as a table. -/
def Attributes.codec : Codec Attributes := Codec.dict Codec.text

/-- The names in a list. -/
def textsCodec : Codec (List String) := Codec.list Codec.text

/-! ## The project -/

/-- The project itself. -/
structure ProjectSection where
  group : String
  name : String
  version : String
  status : String := defaultStatus
  /-- The path in the build, if the project is part of one. -/
  path : Option String := none
  deriving DecidableEq

def ProjectSection.fields : Fields ProjectSection ProjectSection :=
  ProjectSection.mk <$> required "group" Codec.text ProjectSection.group
    <*> required "name" Codec.text ProjectSection.name
    <*> required "version" Codec.text ProjectSection.version
    <*> defaulted "status" Codec.text ProjectSection.status defaultStatus
    <*> optional "path" Codec.text ProjectSection.path

/-- The attribute names that the project declares. -/
structure SchemaSection where
  attributes : List String := []
  deriving DecidableEq

def SchemaSection.fields : Fields SchemaSection SchemaSection :=
  SchemaSection.mk <$> defaulted "attributes" textsCodec SchemaSection.attributes []

/-! ## Configurations -/

/-- An artifact that a configuration publishes or a project builds. -/
structure ArtifactSection where
  name : String
  attributes : Attributes := Dict.empty
  deriving DecidableEq

def ArtifactSection.fields : Fields ArtifactSection ArtifactSection :=
  ArtifactSection.mk <$> required "name" Codec.text ArtifactSection.name
    <*> defaulted "attributes" Attributes.codec ArtifactSection.attributes Dict.empty

def ArtifactSection.codec : Codec ArtifactSection := ArtifactSection.fields.codec "ArtifactSection"

/-- A configuration. -/
structure ConfigurationSection where
  name : String
  attributes : Attributes := Dict.empty
  dependencyLocking : Bool := false
  /-- Module versions and project paths. -/
  dependencies : List String := []
  /-- Files that the configuration depends on. -/
  files : List Path := []
  artifacts : List ArtifactSection := []
  deriving DecidableEq

def ConfigurationSection.fields : Fields ConfigurationSection ConfigurationSection :=
  ConfigurationSection.mk <$> required "name" Codec.text ConfigurationSection.name
    <*> defaulted "attributes" Attributes.codec ConfigurationSection.attributes Dict.empty
    <*> defaulted "dependency-locking" Codec.boolean ConfigurationSection.dependencyLocking false
    <*> defaulted "dependencies" textsCodec ConfigurationSection.dependencies []
    <*> defaulted "files" (Codec.list Codec.path) ConfigurationSection.files []
    <*> defaulted "artifacts" (Codec.list ArtifactSection.codec) ConfigurationSection.artifacts []

/-! ## External components -/

/-- The descriptor formats there are. -/
inductive FormatName where
  | ivy
  | maven
  | gradle
  deriving DecidableEq, Repr

def FormatName.text : FormatName → String
  | ivy => "ivy"
  | maven => "maven"
  | gradle => "gradle"

def FormatName.codec : Codec FormatName :=
  Codec.choice [("ivy", .ivy), ("maven", .maven), ("gradle", .gradle)] FormatName.text

/-- The published metadata of an external component. -/
structure ComponentSection where
  id : String
  format : FormatName := .maven
  status : Option String := none
  statusScheme : Option (List String) := none
  changing : Bool := false
  attributes : Attributes := Dict.empty
  branch : Option String := none
  extraInfo : Dict String String := Dict.empty
  packaging : Option String := none
  deriving DecidableEq

def ComponentSection.fields : Fields ComponentSection ComponentSection :=
  ComponentSection.mk <$> required "id" Codec.text ComponentSection.id
    <*> defaulted "format" FormatName.codec ComponentSection.format .maven
    <*> optional "status" Codec.text ComponentSection.status
    <*> optional "status-scheme" textsCodec ComponentSection.statusScheme
    <*> defaulted "changing" Codec.boolean ComponentSection.changing false
    <*> defaulted "attributes" Attributes.codec ComponentSection.attributes Dict.empty
    <*> optional "branch" Codec.text ComponentSection.branch
    <*> defaulted "extra-info" (Codec.dict Codec.text) ComponentSection.extraInfo Dict.empty
    <*> optional "packaging" Codec.text ComponentSection.packaging

/-- How a rule names the inputs it needs. -/
def inputName : InputKind → String
  | .ivyDescriptor => "ivy-descriptor"
  | .pomDescriptor => "pom-descriptor"

def inputCodec : Codec InputKind :=
  Codec.choice [("ivy-descriptor", .ivyDescriptor), ("pom-descriptor", .pomDescriptor)] inputName

/-- A rule for external components. -/
structure RuleSection where
  /-- A pattern for `group:name`; without one the rule is for all. -/
  module : Option String := none
  requires : List InputKind := []
  setStatus : Option String := none
  appendStatus : Option String := none
  statusFromBranch : Bool := false
  statusScheme : Option (List String) := none
  changing : Option Bool := none
  attributes : Attributes := Dict.empty
  deriving DecidableEq

def RuleSection.fields : Fields RuleSection RuleSection :=
  RuleSection.mk <$> optional "module" Codec.text RuleSection.module
    <*> defaulted "requires" (Codec.list inputCodec) RuleSection.requires []
    <*> optional "set-status" Codec.text RuleSection.setStatus
    <*> optional "append-status" Codec.text RuleSection.appendStatus
    <*> defaulted "status-from-branch" Codec.boolean RuleSection.statusFromBranch false
    <*> optional "status-scheme" textsCodec RuleSection.statusScheme
    <*> optional "changing" Codec.boolean RuleSection.changing
    <*> defaulted "attributes" Attributes.codec RuleSection.attributes Dict.empty

def RuleSection.codec : Codec RuleSection := RuleSection.fields.codec "RuleSection"

/-- A module replacement. -/
structure ReplacementSection where
  module : String
  replacedBy : String
  reason : Option String := none
  deriving DecidableEq

def ReplacementSection.fields : Fields ReplacementSection ReplacementSection :=
  ReplacementSection.mk <$> required "module" Codec.text ReplacementSection.module
    <*> required "replaced-by" Codec.text ReplacementSection.replacedBy
    <*> optional "reason" Codec.text ReplacementSection.reason

/-! ## Artifacts -/

/-- Another project of the build. -/
structure SiblingSection where
  path : String
  artifacts : List ArtifactSection := []
  deriving DecidableEq

def SiblingSection.fields : Fields SiblingSection SiblingSection :=
  SiblingSection.mk <$> required "path" Codec.text SiblingSection.path
    <*> defaulted "artifacts" (Codec.list ArtifactSection.codec) SiblingSection.artifacts []

/-- A transform of artifacts. -/
structure TransformSection where
  /-- What an artifact has to carry. -/
  source : Attributes
  /-- What its transformed form carries in addition or instead. -/
  target : Attributes
  /-- What is added to the stem of a file's name. -/
  suffix : String
  deriving DecidableEq

def TransformSection.fields : Fields TransformSection TransformSection :=
  TransformSection.mk <$> required "from" Attributes.codec TransformSection.source
    <*> required "to" Attributes.codec TransformSection.target
    <*> required "suffix" Codec.text TransformSection.suffix

/-- The directory of module artifacts, if none is given. -/
def defaultRepository : Path := "repo"

/-- Where the artifacts of modules lie. -/
structure RepositorySection where
  dir : Path := defaultRepository
  deriving DecidableEq

def RepositorySection.fields : Fields RepositorySection RepositorySection :=
  RepositorySection.mk <$> defaulted "dir" Codec.path RepositorySection.dir defaultRepository

/-! ## The whole -/

/-- A project descriptor. -/
structure Descriptor where
  project : ProjectSection
  schema : SchemaSection := {}
  configurations : List ConfigurationSection := []
  /-- Locked versions by configuration. -/
  locks : Dict String (List String) := Dict.empty
  components : List ComponentSection := []
  rules : List RuleSection := []
  replacements : List ReplacementSection := []
  projects : List SiblingSection := []
  transforms : List TransformSection := []
  repository : RepositorySection := {}
  deriving DecidableEq

namespace Descriptor

def fields : Fields Descriptor Descriptor :=
  mk <$> required "project" (ProjectSection.fields.codec "ProjectSection") project
    <*> defaulted "schema" (SchemaSection.fields.codec "SchemaSection") schema {}
    <*> defaulted "configurations"
      (Codec.list (ConfigurationSection.fields.codec "ConfigurationSection")) configurations []
    <*> defaulted "locks" (Codec.dict textsCodec) locks Dict.empty
    <*> defaulted "components" (Codec.list (ComponentSection.fields.codec "ComponentSection"))
      components []
    <*> defaulted "rules" (Codec.list RuleSection.codec) rules []
    <*> defaulted "replacements" (Codec.list (ReplacementSection.fields.codec "ReplacementSection"))
      replacements []
    <*> defaulted "projects" (Codec.list (SiblingSection.fields.codec "SiblingProjectSection"))
      projects []
    <*> defaulted "transforms" (Codec.list (TransformSection.fields.codec "TransformSection"))
      transforms []
    <*> defaulted "repository" (RepositorySection.fields.codec "RepositorySection") repository {}

def codec : Codec Descriptor := fields.codec "ProjectDescriptor"

/-- Read a descriptor from a TOML table; `origin` names where it came from. A table that does not
fit counts as malformed if something in it has no value. -/
def ofValue (origin : String) (v : Toml.Value) : Except Failure Descriptor :=
  match codec.decode v with
  | .ok d => .ok d
  | .error mismatch =>
    if v.documentIsRepresentable then .error (.descriptorInvalid origin mismatch.message)
    else .error (.descriptorMalformed origin)

/-- Read a descriptor from a text; `origin` names where it came from. -/
def parse (origin text : String) : Except Failure Descriptor :=
  match Toml.readDocument text with
  | some v => ofValue origin v
  | none => .error (.descriptorMalformed origin)

/-! ## A sample -/

/-- A project that builds one jar. -/
def sampleSibling (path jar : String) : SiblingSection :=
  { path := path, artifacts := [{ name := jar, attributes := .single "type" "jar" }] }

/-- A project with two other ones, with rules, a replacement and a transform: small, and with
something in every section but the repository. -/
def sample : Descriptor where
  project := { group := "org.example", name := "app", version := "1.0", path := some ":app" }
  schema := { attributes := ["usage", "type"] }
  configurations :=
    [{ name := "runtime"
       attributes := .single "usage" "runtime"
       dependencyLocking := true
       dependencies := ["org.example:lib:2.0", ":a", ":b"]
       files := ["libs/local.jar"]
       artifacts := [{ name := "app.jar", attributes := .single "type" "jar" }] },
     { name := "compile"
       attributes := .single "usage" "api"
       dependencies := ["org.example:api:1.0"] }]
  locks := Dict.empty.insert "runtime" ["org.example:lib:2.0"]
  components :=
    [{ id := "org.ivy:mod:1.0", format := .ivy, branch := some "release" },
     { id := "org.maven:lib:3.1", format := .maven, status := some "milestone" }]
  rules :=
    [{ module := some "org.ivy:*", requires := [.ivyDescriptor], statusFromBranch := true },
     { changing := some false, attributes := .single "component.normalised" "true" }]
  replacements :=
    [{ module := "org.old:lib", replacedBy := "org.maven:lib", reason := some "renamed" }]
  projects := [sampleSibling ":a" "a.jar", sampleSibling ":b" "b.jar"]
  transforms :=
    [{ source := .single "type" "jar", target := .single "type" "classes", suffix := "-classes" }]

end Descriptor

end Componentry
