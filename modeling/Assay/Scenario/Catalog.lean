import Assay.Scenario.Basic
import Assay.Text.Search

namespace Assay.Catalog

def usageHint (program : String) : String :=
  s!"Use \"{program} --help\" for information about {program}-usage."

def helpPhrase (program : String) : String :=
  s!"{program} applies a transform on an input image and/or"

def versionLine (program version : String) : String :=
  s!"{program} version: {version}"

def missingOption (option : String) : String :=
  s!"ERROR: No CommandLine option \"{option}\" given!"

def missingInput : String :=
  "ERROR: At least one of the CommandLine options \"-in\", \"-def\", \"-jac\", or \"-jacmat\" " ++
    "should be given!"

/-- What the extended version text contains besides the program's own version. -/
def extendedLabels : List String :=
  ["Git revision SHA: ", "Git revision date: ", "Memory address size: ", "CMake version: ",
    "ITK version: "]

/-- A path below the directory of a placeholder. -/
def below (placeholder name : String) : String :=
  "\x7b" ++ placeholder ++ "\x7d/" ++ name

def outDirectory : String := "\x7bout\x7d"

def inputImage : String := below "data" "2D_2x2_square_object_at_(2,1).mhd"

def expectedImage : String := below "data" "2D_2x2_square_object_at_(1,3).mhd"

def inputPoints : String := below "data" "2D_unit_square_corner_points.txt"

def parameters : String := below "params" "Translation(1,-2).txt"

def outputPoints : String := "outputpoints.txt"

/-- A scenario in which a program prints something and nothing else happens. -/
def banner (name description : String) (args : List String) (stdout : StreamExpectation) :
    Scenario :=
  ⟨name, some description, args, [], .success, stdout, .empty, []⟩

/-- A scenario in which a program refuses its arguments. -/
def refused (name description : String) (args : List String) (error : String) : Scenario :=
  ⟨name, some description, args, [], .failure, .any, .exact error, []⟩

/-- A scenario in which a program produces files. -/
def transformed (name description : String) (args outputSubdirs : List String)
    (artifacts : List Artifact) : Scenario :=
  ⟨name, some description, args, outputSubdirs, .success, .any, .any, artifacts⟩

def imageArtifact : Artifact :=
  .image "result.mhd" expectedImage none

/-- All built-in scenarios for a program of a name that reports a version. -/
def builtin (program version : String) : List Scenario :=
  [banner "without_arguments" "Tests executing transformix without arguments" []
     (.exact (usageHint program)),
   banner "help" "Tests --help" ["--help"] (.contains (helpPhrase program)),
   banner "version" "Tests --version" ["--version"] (.exact (versionLine program version)),
   banner "extended_version" "Tests --extended-version" ["--extended-version"]
     (.containsAll (s!"{program} version: " :: extendedLabels)),
   refused "missing_tp_commandline_option" "Tests missing -tp commandline option"
     ["-in", "InputImageFile.ext", "-out", outDirectory] (missingOption "-tp"),
   refused "missing_out_commandline_option" "Tests missing -out commandline option"
     ["-in", "InputImageFile.ext", "-tp", "TransformParameters.txt"] (missingOption "-out"),
   refused "missing_input_commandline_option" "Tests missing input commandline option"
     ["-tp", "TransformParameters.txt", "-out", outDirectory] missingInput,
   transformed "translation_of_images" "Tests translation of images"
     ["-in", inputImage, "-tp", parameters, "-out", outDirectory] [] [imageArtifact],
   transformed "translation_of_points" "Tests translation of points"
     ["-def", inputPoints, "-tp", parameters, "-out", outDirectory ++ "/out"] ["out"]
     [.exactFile ("out/" ++ outputPoints) outputPoints],
   transformed "translation_of_images_and_points"
     "Tests translation of images and points together"
     ["-in", inputImage, "-def", inputPoints, "-tp", parameters, "-out", outDirectory] []
     [imageArtifact,
      .exactFile outputPoints ("translation_of_images_and_points/" ++ outputPoints)]]

/-- The scenarios whose name contains a text. -/
def select (filter : Option String) (scenarios : List Scenario) : List Scenario :=
  match filter with
  | none => scenarios
  | some text => scenarios.filter fun s => Text.contains s.name text

end Assay.Catalog
