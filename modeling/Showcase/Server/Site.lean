import Showcase.FileTree.Operations
import Showcase.Page.Basic
import Showcase.Server.Message
import Showcase.Server.Router
import Showcase.Text.Percent

namespace Showcase.Server

structure Site where
  registry : Registry
  deployment : Deployment
  publicDirectory : String

namespace Site

open FileTree.Path (join)

def selection (site : Site) : Selection := Selection.start site.registry site.deployment

def home (site : Site) : Response := .html 200 (site.selection.page none).1.render

def sample (site : Site) (id : String) : Response :=
  match site.selection.select id with
  | .ok (_, moved) => .html 200 (moved.page none).1.render
  | .error error => .html 404 (site.selection.page (some error.message)).1.render

def summaries (site : Site) : Response :=
  .json 200 (Json.compactList SampleSummary.layout site.registry.summaries)

def view (site : Site) (id : String) : Response :=
  match site.selection.select id with
  | .ok (_, moved) => .json 200 (Json.compact View.layout moved.view.1)
  | .error error => .json 404 (Json.compact ApiError.layout error.toApi)

/-- Names that could lead out of the artifact directory are refused, and hidden files with them. -/
def isFileName (name : String) : Bool :=
  let text := name.toList
  !text.isEmpty && text.head? != some '.' && !text.any (fun c => c == '/' || c == '\\') &&
    !Text.contains ['.', '.'] text

def artifactFile (site : Site) (name : String) : String :=
  join (join site.publicDirectory site.registry.rule.folder) name

/-- The characters that a header can hold: all but the control codes, the tab excepted. -/
def isHeaderChar (c : Char) : Bool := c == '\t' || (0x20 ≤ c.toNat && c.toNat != 0x7F)

def attachment (name : String) (content : Bytes) : Response :=
  if name.toList.all isHeaderChar then
    { status := 200
      contentType := some Response.plainText
      contentDisposition := some ("attachment; filename=\"" ++ name ++ "\"")
      body := content }
  else .plain 500 "failed to parse header value"

def download (name : String) : Except IoFault Bytes → Response
  | .ok content => attachment name content
  | .error .notFound => .apiError 404 .notFound s!"artifact '{name}' not found"
  | .error _ => .apiError 500 .internal "failed to read artifact"

def artifact (site : Site) (tree : FileTree) (name : String) : Response :=
  if !isFileName name then .apiError 400 .validation s!"invalid artifact name '{name}'"
  else download name (tree.read (site.artifactFile name))

def withSegment (endpoint : Endpoint) (raw : String) (answer : String → Response) : Response :=
  match Text.Percent.decode? raw with
  | some text => answer text
  | none => .plain 400 ("Invalid URL: Invalid UTF-8 in `" ++ endpoint.parameter ++ "`")

def answer (site : Site) (tree : FileTree) (endpoint : Endpoint) (raw : String) : Response :=
  match endpoint with
  | .health => .plain 200 "ok"
  | .home => site.home
  | .sample => withSegment endpoint raw site.sample
  | .summaries => site.summaries
  | .view => withSegment endpoint raw site.view
  | .artifact => withSegment endpoint raw (site.artifact tree)

def respond (site : Site) (router : Router) (tree : FileTree) (request : Request) : Response :=
  match request.path?.bind router.dispatch? with
  | none => .notFound
  | some (endpoint, raw) =>
    if request.method = "GET" then site.answer tree endpoint raw
    else if request.method = "HEAD" then { site.answer tree endpoint raw with body := [] }
    else .methodNotAllowed

end Site

end Showcase.Server
