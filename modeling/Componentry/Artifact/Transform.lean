import Componentry.Artifact.Resolution
import Componentry.Descriptor

/-!
# Declared transforms and built artifacts

The transforms of a descriptor as a pipeline: the first one applies whose source attributes the
artifact carries and whose output satisfies the request. Its output lies next to the input, under a
name with the transform's suffix after the stem. The artifacts of projects are built into a
directory under `build` that the project's path names. Both only say where files would be; nothing
is written.

`jarTo` and `buildFlat` are the simplest collaborators of these kinds, for trying things out.
-/

namespace Componentry

/-- The attribute that says what kind of file an artifact is. -/
def artifactType : String := "type"

/-- The attributes of an artifact of which only its kind is known. -/
def Attributes.ofType (kind : String) : Attributes := .single artifactType kind

/-- The attributes of a plain file: its extension is its kind. -/
def Path.attributes (p : Path) : Attributes := .ofType (p.extension.getD "")

/-! ## Transforms -/

namespace TransformSection

/-- The attributes of the output for an artifact with attributes `own`. -/
def output (t : TransformSection) (own : Attributes) : Attributes := own.merge t.target

/-- Whether the transform turns an artifact with attributes `own` into one that satisfies
`requested`. -/
def applies (t : TransformSection) (own requested : Attributes) : Bool :=
  own.hasAll t.source && (t.output own).isCompatibleWith requested

/-- The name of the output: the suffix goes between stem and extension. -/
def outputName (t : TransformSection) (file : Path) : String :=
  file.stem.getD "" ++ t.suffix ++
    match file.extension with
    | some extension => "." ++ extension
    | none => ""

/-- The output for a file. -/
def outputFile (t : TransformSection) (file : Path) : Path := file.withFileName (t.outputName file)

end TransformSection

/-- The first transform that applies. -/
def findTransform (transforms : List TransformSection) (own requested : Attributes) :
    Option TransformSection :=
  transforms.find? (·.applies own requested)

/-- The pipeline of declared transforms. -/
def Pipeline.declared (transforms : List TransformSection) : Pipeline where
  canTransform _ own requested := (findTransform transforms own requested).isSome
  transform _ artifact file own requested :=
    match findTransform transforms own requested with
    | some t => ⟨.ok [t.outputFile file], [.fileTransformed file (t.outputFile file)]⟩
    | none =>
      ⟨.error (.failure (.transformFailed artifact.display requested
        ("no transform from " ++ own.display))), []⟩

/-- The pipeline that turns jars into `kind`, named with the suffix `-kind`. -/
def Pipeline.jarTo (kind : String) : Pipeline :=
  .declared [⟨.ofType "jar", .ofType kind, "-" ++ kind⟩]

/-! ## Builds -/

/-- The directory that the artifacts of a project are built into. -/
def projectLibraries (base : Path) (path : String) : Path :=
  (((Text.splitOn ':' path).filter (· ≠ "")).foldl Path.join (base.join "build")).join "libs"

/-- Builds the artifacts of projects under `base`. -/
def Producer.ofProjects (base : Path) : Producer := fun _ artifact =>
  match artifact.component with
  | .project path =>
    ⟨.ok ((projectLibraries base path).join artifact.name), [.artifactBuilding artifact]⟩
  | _ =>
    ⟨.error (.failure (.buildFailed artifact.display "only project artifacts can be built")), []⟩

/-- Builds every artifact into one directory. -/
def Producer.buildFlat : Producer := fun _ artifact => ⟨.ok (Path.join "build" artifact.name), []⟩

/-! ## Components -/

/-- The name of a file as an artifact. -/
def Path.artifactName (p : Path) : String := p.fileName.getD p

/-- A plain file as a component, its artifact lying at `location`. Components are told apart by the
path that was declared, because files in different directories may share a name. -/
def ResolvedComponent.ofFile (declared location : Path) : ResolvedComponent :=
  let id := ComponentId.file declared
  ⟨id, [⟨⟨id, declared.artifactName⟩, declared.attributes, .file location⟩]⟩

/-- A project with one jar, which is named after the last part of the project's path. -/
def ResolvedComponent.ofProject (producer : Producer) (path : String) : ResolvedComponent :=
  let id := ComponentId.project path
  let name := (Text.splitOn ':' path).getLastD "" ++ ".jar"
  ⟨id, [⟨⟨id, name⟩, .ofType "jar", .built producer⟩]⟩

end Componentry
