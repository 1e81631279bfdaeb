import Showcase.Json.Write
import Showcase.Record.Layouts
import Showcase.Text.Utf8

namespace Showcase.Server

structure Request where
  method : String := "GET"
  uri : String
deriving DecidableEq

def pathBehindAuthority : List Char → List Char
  | ':' :: '/' :: '/' :: rest => rest.dropWhile fun c => !Text.isSlash c
  | _ :: rest => pathBehindAuthority rest
  | [] => []

def Request.path? (request : Request) : Option String :=
  let text := request.uri.toList.takeWhile fun c => c != '?' && c != '#'
  if text.head? == some '/' then some (String.ofList text)
  else if Text.contains [':', '/', '/'] text then
    match pathBehindAuthority text with
    | [] => some "/"
    | path => some (String.ofList path)
  else none

structure Response where
  status : Nat
  contentType : Option String := none
  contentDisposition : Option String := none
  allow : Option String := none
  body : Bytes := []
deriving DecidableEq

namespace Response

def plainText : String := "text/plain; charset=utf-8"

def plain (status : Nat) (text : String) : Response where
  status
  contentType := some plainText
  body := Text.utf8 text

def html (status : Nat) (text : String) : Response where
  status
  contentType := some "text/html; charset=utf-8"
  body := Text.utf8 text

def json (status : Nat) (text : String) : Response where
  status
  contentType := some "application/json"
  body := Text.utf8 text

def apiError (status : Nat) (code : ErrorCode) (message : String) : Response :=
  json status (Json.compact ApiError.layout ⟨code, message⟩)

def notFound : Response := { status := 404 }

def methodNotAllowed : Response := { status := 405, allow := some "GET,HEAD" }

end Response

end Showcase.Server
