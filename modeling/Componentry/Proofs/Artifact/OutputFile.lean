import Componentry.Artifact.Transform
import Componentry.Proofs.Path.FileName

/-!
# The outputs of a declared transform

The output of a declared transform lies next to the file that is transformed, and is named after it.
As no two names come out as one, no two files have one output: neither an extension nor a dot in the
suffix can make a file without an extension come out as one with an extension.

Results:
* `TransformSection.components_outputFile`: where the output lies.
* `TransformSection.outputFile_inj`: a file is found again in its output.
* **`Pipeline.outputs_apart`**: what the pipeline answers for two files and one transform.
-/

namespace Componentry

namespace TransformSection

variable {t : TransformSection} {file other : Path} {name name' : String}

/-- The output is named after the file. -/
theorem outputName_eq (h : file.fileName = some name) :
    t.outputName file = Path.suffixed t.suffix name := by
  rw [outputName, Path.stem, Path.extension, h, Path.suffixed]
  match hsplit : Path.splitName name with
  | (stem, none) => simp [hsplit]
  | (stem, some extension) => simp [hsplit, String.append_assoc]

/-- **The output lies next to the file.** -/
theorem components_outputFile (hsuffix : '/' ∉ t.suffix.toList) (h : file.fileName = some name) :
    (t.outputFile file).components =
      file.components.dropLast ++ [.name (Path.suffixed t.suffix name)] := by
  rw [outputFile, outputName_eq h,
    Path.components_withFileName h ((Path.isName_of_fileName h).suffixed hsuffix)]

/-- The name of the output tells the name of the file. -/
theorem outputFile_ne (hsuffix : '/' ∉ t.suffix.toList) (h : file.fileName = some name)
    (h' : other.fileName = some name') (hne : name ≠ name') :
    (t.outputFile file).components ≠ (t.outputFile other).components := by
  rw [components_outputFile hsuffix h, components_outputFile hsuffix h']
  intro hsame
  have hlast := List.singleton_inj.mp (List.append_inj' hsame rfl).2
  exact hne (Path.suffixed_injective t.suffix (Segment.name.inj hlast))

/-- **Only one file has an output.** -/
theorem outputFile_inj (hsuffix : '/' ∉ t.suffix.toList) (h : file.fileName = some name)
    (h' : other.fileName = some name') :
    (t.outputFile file).components = (t.outputFile other).components ↔
      file.components = other.components := by
  constructor
  · intro hsame
    have hname : name = name' := by_contra fun hne => outputFile_ne hsuffix h h' hne hsame
    rw [components_outputFile hsuffix h, components_outputFile hsuffix h'] at hsame
    rw [Path.components_of_fileName h, Path.components_of_fileName h', hname,
      (List.append_inj' hsame rfl).1]
  · intro hsame
    have hname : name = name' := by
      rw [Path.fileName, hsame] at h
      exact Option.some.inj (h.symm.trans h')
    rw [components_outputFile hsuffix h, components_outputFile hsuffix h', hsame, hname]

end TransformSection

namespace Pipeline

variable {transforms : List TransformSection} {t : TransformSection}
  {own own' requested requested' : Attributes} {file other : Path} {name name' : String}

/-- The pipeline answers with the output of the first transform that applies. -/
theorem transform_declared (hfind : findTransform transforms own requested = some t)
    (history : History) (id : ArtifactId) (file : Path) :
    ((declared transforms).transform history id file own requested).outcome =
      .ok [t.outputFile file] := by
  simp only [declared, hfind]

/-- **No two files have one output.** If the pipeline chooses one transform for two files, whose
suffix holds no slash, each of them has exactly one output, next to the file. The outputs are the
same path only if the files are, and so they differ if the names of the files do. -/
theorem outputs_apart (hfind : findTransform transforms own requested = some t)
    (hfind' : findTransform transforms own' requested' = some t) (hsuffix : '/' ∉ t.suffix.toList)
    (hname : file.fileName = some name) (hname' : other.fileName = some name')
    (history history' : History) (id id' : ArtifactId) :
    ∃ output output' : Path,
      ((declared transforms).transform history id file own requested).outcome = .ok [output] ∧
      ((declared transforms).transform history' id' other own' requested').outcome = .ok [output'] ∧
      output.components.dropLast = file.components.dropLast ∧
      output'.components.dropLast = other.components.dropLast ∧
      (output.components = output'.components ↔ file.components = other.components) ∧
      (name ≠ name' → output.components ≠ output'.components) := by
  refine ⟨t.outputFile file, t.outputFile other, transform_declared hfind history id file,
    transform_declared hfind' history' id' other, ?_, ?_,
    TransformSection.outputFile_inj hsuffix hname hname',
    TransformSection.outputFile_ne hsuffix hname hname'⟩
  · rw [TransformSection.components_outputFile hsuffix hname, List.dropLast_concat]
  · rw [TransformSection.components_outputFile hsuffix hname', List.dropLast_concat]

/-- The transform of jars into classes, whose suffix looks like an extension. -/
def dotted : TransformSection := ⟨.ofType "jar", .ofType "classes", ".classes"⟩

/-- A file that is named like the output of another one has another output. -/
theorem outputs_apart_dotted :
    findTransform [dotted] (.ofType "jar") (.ofType "classes") = some dotted ∧
    ∃ output output' : Path,
      ((declared [dotted]).transform [] ⟨.file "libs/a", "a"⟩ "libs/a" (.ofType "jar")
        (.ofType "classes")).outcome = .ok [output] ∧
      ((declared [dotted]).transform [] ⟨.file "libs/a.classes", "a.classes"⟩ "libs/a.classes"
        (.ofType "jar") (.ofType "classes")).outcome = .ok [output'] ∧
      output.components ≠ output'.components := by
  have hfind : findTransform [dotted] (.ofType "jar") (.ofType "classes") = some dotted := by decide
  obtain ⟨output, output', houtput, houtput', -, -, -, hne⟩ :=
    outputs_apart hfind hfind (by decide) (by decide : Path.fileName "libs/a" = some "a")
      (by decide : Path.fileName "libs/a.classes" = some "a.classes") [] [] ⟨.file "libs/a", "a"⟩
      ⟨.file "libs/a.classes", "a.classes"⟩
  exact ⟨hfind, output, output', houtput, houtput', hne (by decide)⟩

end Pipeline

end Componentry
