import Showcase.Html
import Showcase.Page.Style
import Showcase.Selection.Basic

namespace Showcase

structure Page where
  view : View
  nav : List NavItem
  notice : Option String
  extension : String
  folder : String
deriving DecidableEq

namespace Page

open Html (Part)

def heading : String := "Pascal → LLVM IR samples"

def navParts (item : NavItem) : List Part :=
  let (style, current) := if item.active then ("sample active", " aria-current=\"page\"") else ("sample", "")
  [.markup ("<a class=\"" ++ style ++ "\" href=\""), .text item.href, .markup ("\"" ++ current ++ ">"),
   .text item.title, .markup "</a>\n"]

def noticeParts : Option String → List Part
  | none => []
  | some message =>
    [.markup "<div class=\"panel notice\" role=\"alert\">", .text message, .markup "</div>\n"]

def headParts (page : Page) : List Part :=
  [.markup ("<!doctype html>\n<html lang=\"en\">\n<head>\n<meta charset=\"utf-8\">\n" ++
     "<meta name=\"viewport\" content=\"width=device-width, initial-scale=1\">\n<title>"),
   .text page.view.title,
   .markup (" · " ++ heading ++ "</title>\n<style>\n"),
   .markup stylesheet,
   .markup ("</style>\n</head>\n<body>\n<div class=\"layout\">\n<aside>\n<div class=\"panel\">\n" ++
     "<h2>Samples</h2>\n<nav class=\"samples\">\n")]

def samplePartsOf (view : View) : List Part :=
  [.markup "<div class=\"panel\">\n<div class=\"header\">\n<div>\n<h3>",
   .text view.title,
   .markup ("</h3>\n<div class=\"muted\">Source · Expected output · Download IR</div>\n</div>\n" ++
     "<a class=\"download\" href=\""),
   .text view.downloadHref,
   .markup "\" download>Download IR (",
   .text view.downloadLabel,
   .markup ")</a>\n</div>\n<section>\n<div class=\"label\">Pascal</div>\n<pre>",
   .text view.sourceText,
   .markup "</pre>\n</section>\n<section>\n<div class=\"label\">Expected Output</div>\n<pre>",
   .text view.expectedOutput,
   .markup "</pre>\n<div class=\"muted\">To run locally: <code>lli tests\\",
   .text view.downloadLabel,
   .markup "</code></div>\n</section>\n</div>\n"]

def footerParts (page : Page) : List Part :=
  [.markup ("<div class=\"panel footer\">\n<b>How this works:</b> These are real Pascal programs and the " ++
     "LLVM IR the compiler generated for them.\nThe &ldquo;Download IR&rdquo; link serves the <code>."),
   .text page.extension,
   .markup "</code> files from <code>public/",
   .text page.folder,
   .markup "</code>. No backend.\n</div>\n</main>\n</div>\n</body>\n</html>\n"]

def parts (page : Page) : List Part :=
  page.headParts ++ page.nav.flatMap navParts ++ [.markup "</nav>\n</div>\n</aside>\n<main>\n"] ++
    noticeParts page.notice ++ samplePartsOf page.view ++ page.footerParts

def render (page : Page) : String := Html.render page.parts

end Page

def Selection.page (selection : Selection) (notice : Option String) : Page × Selection :=
  let (view, read) := selection.view
  ({ view, nav := selection.nav, notice,
     extension := selection.registry.rule.extension,
     folder := selection.registry.rule.folder }, read)

end Showcase
