import GoMetadata.Bazel.Client
import GoMetadata.FileSet
import GoMetadata.Label
import GoMetadata.Package
import GoMetadata.Protocol
import GoMetadata.Settings

/-!
One run: the identifiers are resolved to targets, the targets are built, the descriptors among the
files of the build are loaded and linked, and the packages are the response. The first failure ends
the run; nothing is asked before the arguments and the request have been found in order, and no
pattern is among the arguments.
-/

namespace GoMetadata.Session

def resolve (suffix : String) : Identifier → Session String
  | .label text => return text
  | .pattern expression =>
    Exchange.fail (.reported (.unsupportedQuery (Identifier.pattern expression).text))
  | .file path => do
    if hasEnding suffix path then
      match ← tryQuery path with
      | .ok answer =>
        Exchange.ofResult ((Identifier.targetOfAnswer path answer).mapError .reported)
      | .error (.reported error) =>
        Exchange.fail (.reported (.ambiguousSource path [] error.message))
      | .error (.unreported defect) => Exchange.fail (.unreported defect)
    else Exchange.fail (.reported (.unsupportedFileKind path suffix))

/-- The targets of identifiers, one for each. A pattern is noticed before anything is asked. -/
def resolveAll (suffix : String) (identifiers : List Identifier) : Session (List String) :=
  if identifiers = [] then Exchange.fail (.reported .noTargets)
  else
    match identifiers.find? Identifier.isPattern with
    | some found => Exchange.fail (.reported (.unsupportedQuery found.text))
    | none => identifiers.mapM (resolve suffix)

def targetSet (suffix : String) (identifier : Identifier) : Session (List String) := do
  return [← resolve suffix identifier]

def targetSets (suffix : String) (identifiers : List Identifier) : Session (List (List String)) :=
  if identifiers = [] then Exchange.fail (.reported .noTargets)
  else
    match identifiers.find? Identifier.isPattern with
    | some found => Exchange.fail (.reported (.unsupportedQuery found.text))
    | none => identifiers.mapM (targetSet suffix)

def tell (settings : Settings) (notice : Notice) : Session Unit :=
  if notice.isShown settings.verbose then print notice else return ()

def loadDescriptor (path : Path) : Session Descriptor := do
  Exchange.ofResult (Descriptor.ofFile path (← read path))

def graphOfLog (group : String) (log : Bytes) : Session FileSetGraph :=
  Exchange.ofResult
    ((FileSetGraph.observeLog group {} log).mapError fun halted => .reported halted.error)

def startNotice (targets : List String) : Notice :=
  .progress ("building " ++ toString targets.length ++ " target(s): " ++ " ".intercalate targets)

def flagsNotice (flags : List String) : Notice :=
  .progress ("build flags: " ++ " ".intercalate flags)

def filesNotice (graph : FileSetGraph) (files : List String) : Notice :=
  .progress ("read " ++ toString graph.eventCount ++ " build event(s), " ++
    toString graph.completedCount ++ " completed target(s), " ++ toString files.length ++
    " output file(s)")

def packagesNotice (graph : PackageGraph) (roots : List String) : Notice :=
  .progress ("loaded " ++ toString graph.packages.length ++ " package(s), " ++
    toString roots.length ++ " root(s)")

def respond (settings : Settings) (request : Request) (targets : List String) :
    Session Response := do
  let flags := settings.buildFlags ++ request.buildFlags
  tell settings (startNotice targets)
  if flags ≠ [] then
    tell settings (flagsNotice flags)
  let log ← build settings.outputGroup flags targets
  let graph ← graphOfLog settings.outputGroup log
  let files := graph.flatten
  tell settings (filesNotice graph files)
  let descriptors ← Descriptor.loadAll loadDescriptor settings.workspaceRoot files
  let packages := PackageGraph.ofDescriptors descriptors
  let roots := packages.selectRoots targets
  tell settings (packagesNotice packages roots)
  return { roots, packages := packages.sortedPackages }

def respondTo (settings : Settings) (arguments : List String) (request : Bytes) :
    Session String := do
  let identifiers ← Exchange.ofResult ((Identifier.ofArguments arguments).mapError .reported)
  let request ← Exchange.ofResult (Request.decode request)
  let targets ← resolveAll settings.sourceSuffix identifiers
  let response ← respond settings request targets
  Exchange.ofResult (response.encode.mapError .reported)

end GoMetadata.Session
