import PageBundle.Artifact.Fingerprint
import PageBundle.Resource.Kind

/-!
# Names of artifacts

The path of an artifact depends only on the directory, the build mode, the kind and the membership
of the reference set that it merges.
-/

namespace PageBundle

/-- How artifacts are delivered, which their names tell. -/
inductive BuildMode where
  | static
  | servlet
  deriving DecidableEq, Repr

/-- The start of an artifact's file name. -/
def BuildMode.filePrefix : BuildMode → String
  | .static => "Opt_static_"
  | .servlet => "Opt_servlet_"

/-- A directory without blanks around it, and then without slashes around it. -/
def normalDirectory (directory : String) : String :=
  String.ofList
    (Text.dropEnds (· == '/') (Text.dropEnds Text.isBlank directory.toList))

/-- The file name of an artifact. -/
def artifactName (mode : BuildMode) (kind : Kind) (f : Fingerprint) : String :=
  mode.filePrefix ++ f.hex ++ "." ++ kind.fileExtension

/-- The path of the artifact of `set`, from the web root. -/
def artifactPath (directory : String) (mode : BuildMode) (kind : Kind) (set : ReferenceSet) :
    String :=
  let directory := normalDirectory directory
  let name := artifactName mode kind (Fingerprint.of set)
  if directory == "" then "/" ++ name else "/" ++ directory ++ "/" ++ name

end PageBundle
