import Showcase.Command.Arguments
import Showcase.Export
import Showcase.Json.Write
import Showcase.Settings

namespace Showcase.Command

open FileTree (Effect)

inductive Outcome where
  | refused (refusal : Refusal)
  | failed (failure : Failure)
  | printed (output : String)
deriving DecidableEq

def Outcome.exitCode : Outcome → Nat
  | .refused .usage => 2
  | .refused .help => 0
  | .failed _ => 1
  | .printed _ => 0

def Outcome.output : Outcome → String
  | .printed output => output
  | _ => ""

def Choices.layer (choices : Choices) : Settings.Layer where
  mode := choices.mode
  basePath := choices.basePath
  catalogPath := choices.catalog
  outputDirectory := choices.outputDirectory
  publicDirectory := choices.publicDirectory

def Choices.settings (choices : Choices) (environment : Environment) (tree : FileTree) : Except Failure Settings :=
  (Settings.load tree environment).map fun settings => settings.apply choices.layer

def listSamples (settings : Settings) (tree : FileTree) : Except Failure String := do
  let registry ← settings.registry tree
  return String.join (registry.entries.map fun entry => entry.id.text ++ "\t" ++ entry.title ++ "\n")

def showSample (settings : Settings) (tree : FileTree) (id : String) : Except Failure String := do
  let registry ← settings.registry tree
  let deployment ← settings.deployment.mapError Failure.ofError
  let (_, selection) ← ((Selection.start registry deployment).select id).mapError Failure.ofError
  return Json.pretty View.layout selection.view.1 ++ "\n"

def exportSite (settings : Settings) : Effect Failure String := do
  let registry ← settings.registry (← get)
  let deployment ← settings.deployment.mapError Failure.ofError
  let report ← Export.run registry deployment settings.publicDirectory settings.outputDirectory
  return s!"exported {report.pages.length} pages and {report.copiedAssets} assets to {settings.outputDirectory}\n"

def perform (environment : Environment) (choices : Choices) (request : Request) : Effect Failure String := do
  let tree ← get
  let settings ← choices.settings environment tree
  match request with
  | .list => listSamples settings tree
  | .view id => showSample settings tree id
  | .resolve base relative => return BasePath.resolve base relative ++ "\n"
  | .publish => exportSite settings

def run (arguments : List String) (environment : Environment) (tree : FileTree) : Outcome × FileTree :=
  match parse arguments with
  | .error refusal => (.refused refusal, tree)
  | .ok (choices, request) =>
    match (perform environment choices request).run tree with
    | (.ok output, after) => (.printed output, after)
    | (.error failure, after) => (.failed failure, after)

end Showcase.Command
