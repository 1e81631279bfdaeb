import Showcase.Proofs.Disclosure
/-!
The name that a download is saved under. A header is read back as the name of the file exactly when the name has no
quote in it; otherwise the name ends at its first quote and the rest is left over.
-/
set_option autoImplicit false

namespace Showcase.Server

open FileTree

namespace Disposition

/-- A quoted text, read behind its first quote: its content and what follows. A quote behind a backslash is content. -/
def quotedText : List Char → Option (List Char × List Char)
  | [] => none
  | '"' :: rest => some ([], rest)
  | '\\' :: '"' :: rest => (quotedText rest).map fun (content, behind) => ('"' :: content, behind)
  | c :: rest => (quotedText rest).map fun (content, behind) => (c :: content, behind)

def opening : List Char := "attachment; filename=\"".toList

def fileName? (value : String) : Option (String × String) :=
  if opening.isPrefixOf value.toList then
    (quotedText (value.toList.drop opening.length)).map fun (name, rest) => (String.ofList name, String.ofList rest)
  else none

theorem quoted_text_plain (front rest : List Char) (quoteless : '"' ∉ front) (backslashless : '\\' ∉ front) :
    quotedText (front ++ '"' :: rest) = some (front, rest) := by
  induction front with
  | nil => rw [List.nil_append, quotedText]
  | cons c front ih =>
      have quote : c ≠ '"' := fun same => quoteless (by simp [same])
      have backslash : c ≠ '\\' := fun same => backslashless (by simp [same])
      have behind := ih (fun member => quoteless (List.mem_cons_of_mem c member))
        (fun member => backslashless (List.mem_cons_of_mem c member))
      rw [List.cons_append, quotedText.eq_4 c _ quote (fun _ same => absurd same backslash), behind]
      rfl

theorem header_list (heading front rest : String) :
    (heading ++ front ++ "\"" ++ rest).toList = heading.toList ++ (front.toList ++ '"' :: rest.toList) := by
  simp

theorem file_name_read (front rest : String) (quoteless : '"' ∉ front.toList) (backslashless : '\\' ∉ front.toList) :
    fileName? ("attachment; filename=\"" ++ front ++ "\"" ++ rest) = some (front, rest) := by
  have text : ("attachment; filename=\"" ++ front ++ "\"" ++ rest).toList =
      opening ++ (front.toList ++ '"' :: rest.toList) := header_list _ front rest
  rw [fileName?, text, if_pos (List.isPrefixOf_iff_prefix.mpr (List.prefix_append _ _)), List.drop_left,
    quoted_text_plain _ _ quoteless backslashless, Option.map_some]
  dsimp only
  rw [String.ofList_toList, String.ofList_toList]

theorem quote_cut (name : String) (quoted : '"' ∈ name.toList) :
    ∃ front back, name = front ++ "\"" ++ back ∧ '"' ∉ front.toList := by
  obtain ⟨front, back, split, quoteless⟩ := List.eq_append_cons_of_mem quoted
  refine ⟨String.ofList front, String.ofList back, ?_, by simpa using quoteless⟩
  apply String.toList_injective
  simp [split]

theorem header_read (name : String) (plain : PlainName name) :
    (fileName? ("attachment; filename=\"" ++ name ++ "\"") = some (name, "") ↔ '"' ∉ name.toList) ∧
      ∀ front back, name = front ++ "\"" ++ back → '"' ∉ front.toList →
        fileName? ("attachment; filename=\"" ++ name ++ "\"") = some (front, back ++ "\"") := by
  -- Only the first quote counts: it ends the name, so nothing is left over exactly when it is the closing one.
  have cut : ∀ front back, name = front ++ "\"" ++ back → '"' ∉ front.toList →
      fileName? ("attachment; filename=\"" ++ name ++ "\"") = some (front, back ++ "\"") := by
    rintro front back rfl quoteless
    have backslashless : '\\' ∉ front.toList := fun member => plain.backslashless (by simp [member])
    have read := file_name_read front (back ++ "\"") quoteless backslashless
    simpa only [String.append_assoc] using read
  refine ⟨⟨?_, ?_⟩, cut⟩
  · intro whole quoted
    obtain ⟨front, back, split, quoteless⟩ := quote_cut name quoted
    rw [cut front back split quoteless] at whole
    have left := congrArg (String.toList ∘ Prod.snd) (Option.some.inj whole)
    simp at left
  · intro quoteless
    have read := file_name_read name "" quoteless plain.backslashless
    rwa [String.append_empty] at read

end Disposition

open Disposition (fileName?)

theorem attachment_disposition (name : String) (content : Bytes)
    (answered : (Site.attachment name content).status = 200) :
    (Site.attachment name content).contentDisposition = some ("attachment; filename=\"" ++ name ++ "\"") := by
  unfold Site.attachment at answered ⊢
  split at answered
  · rename_i printable
    rw [if_pos printable]
  · cases answered

theorem artifact_answered (site : Site) (tree : FileTree) (raw name : String) (content : Bytes)
    (decoded : Text.Percent.decode? raw = some name) (plain : PlainName name)
    (read : tree.read (site.artifactFile name) = .ok content) :
    site.answer tree .artifact raw = Site.attachment name content := by
  rw [Site.answer, Site.withSegment, decoded]
  dsimp only
  rw [Site.artifact, (plain_name_iff name).mpr plain, read]
  rfl

/-- Only requests that read get an answer, and one for the head alone gets the same headers. -/
theorem respond_answered (site : Site) (router : Router) (tree : FileTree) (request : Request) (endpoint : Endpoint)
    (raw : String) (dispatched : request.path?.bind router.dispatch? = some (endpoint, raw))
    (answered : (site.respond router tree request).status = 200) :
    (site.answer tree endpoint raw).status = 200 ∧
      (site.respond router tree request).contentDisposition = (site.answer tree endpoint raw).contentDisposition := by
  rw [Site.respond, dispatched] at answered ⊢
  dsimp only at answered ⊢
  split at answered
  · rename_i reading
    rw [if_pos reading]
    exact ⟨answered, rfl⟩
  · rename_i notReading
    rw [if_neg notReading]
    split at answered
    · rename_i head
      rw [if_pos head]
      exact ⟨answered, rfl⟩
    · cases answered

theorem disposition_names (site : Site) (router : Router) (tree : FileTree) (request : Request) (raw : String)
    (dispatched : request.path?.bind router.dispatch? = some (.artifact, raw))
    (answered : (site.respond router tree request).status = 200) :
    ∃ name value, Text.Percent.decode? raw = some name ∧
      (site.respond router tree request).contentDisposition = some value ∧
      (fileName? value = some (name, "") ↔ '"' ∉ name.toList) ∧
      ∀ front back, name = front ++ "\"" ++ back → '"' ∉ front.toList →
        fileName? value = some (front, back ++ "\"") := by
  obtain ⟨status, headers⟩ := respond_answered site router tree request .artifact raw dispatched answered
  obtain ⟨name, content, decoded, plain, read, _⟩ := artifact_ok site tree raw status
  rw [artifact_answered site tree raw name content decoded plain read] at status headers
  rw [attachment_disposition name content status] at headers
  exact ⟨name, _, decoded, headers, Disposition.header_read name plain⟩

theorem disposition_names_escaped : ∃ registry router,
    Registry.ofEntries Catalog.builtinSamples {} = .ok registry ∧
    Router.build registry Deployment.root = .ok router ∧
    let response := (⟨registry, Deployment.root, "public"⟩ : Site).respond router shelf { uri := "/artifacts/test%31.ll" }
    response.status = 200 ∧ ∃ value, response.contentDisposition = some value ∧
      fileName? value = some ("test1.ll", "") := by
  obtain ⟨registry, built⟩ := Registry.builtin_ok
  obtain ⟨_, ruled, _⟩ := Registry.of_entries_rule built
  have accepted : Deployment.ofBasePath "/" = .ok Deployment.root := by decide
  have made := Router.build_ok accepted (by decide) (by decide) registry (default_folder_free registry ruled)
  have asked : ({ uri := "/artifacts/test%31.ll" } : Request).path? = some "/artifacts/test%31.ll" := by decide
  have decoded : Text.Percent.decode? "test%31.ll" = some "test1.ll" := by decide
  have status : (Site.attachment "test1.ll" [104, 105]).status = 200 := by decide
  rw [← escaped_answered registry ruled] at status
  obtain ⟨name, value, unescaped, header, whole, _⟩ := disposition_names ⟨registry, Deployment.root, "public"⟩ _ shelf
    { uri := "/artifacts/test%31.ll" } "test%31.ll"
    (by rw [asked, Option.bind_some, escaped_dispatched registry ruled]) status
  rw [decoded] at unescaped
  cases unescaped
  exact ⟨registry, _, built, made, status, value, header, whole.mpr (by decide)⟩

def quotedNames : List Name := shelfNames.dropLast ++ [⟨"a\"b.ll", by decide⟩]

def quotedShelf : FileTree :=
  { (emptyAt quotedNames.reverse.tail).put quotedNames.reverse (.file { content := [120] }) with current := [] }

theorem quoted_shelf_read : quotedShelf.read "public/artifacts/a\"b.ll" = .ok [120] :=
  open_read quotedShelf _ { content := [120] } ((open_ok_iff quotedShelf _ _).mpr ⟨_, inspect_names quotedShelf _
    quotedNames _ (by decide) (by decide) (by decide) (by decide) (fun _ same => by cases same) (by decide)⟩)

theorem quote_ends_name : ∃ registry router value,
    Registry.ofEntries Catalog.builtinSamples {} = .ok registry ∧
    Router.build registry Deployment.root = .ok router ∧
    Text.Percent.decode? "a%22b.ll" = some "a\"b.ll" ∧
    ({ uri := "/artifacts/a%22b.ll" } : Request).path?.bind router.dispatch? = some (.artifact, "a%22b.ll") ∧
    let response := (⟨registry, Deployment.root, "public"⟩ : Site).respond router quotedShelf
      { uri := "/artifacts/a%22b.ll" }
    response.status = 200 ∧ response.contentDisposition = some value ∧ fileName? value = some ("a", "b.ll\"") := by
  obtain ⟨registry, built⟩ := Registry.builtin_ok
  obtain ⟨_, ruled, _⟩ := Registry.of_entries_rule built
  have accepted : Deployment.ofBasePath "/" = .ok Deployment.root := by decide
  have free := default_folder_free registry ruled
  have made := Router.build_ok accepted (by decide) (by decide) registry free
  have asked : ({ uri := "/artifacts/a%22b.ll" } : Request).path? = some "/artifacts/a%22b.ll" := by decide
  have decoded : Text.Percent.decode? "a%22b.ll" = some "a\"b.ll" := by decide
  have plain := (plain_name_iff "a\"b.ll").mp (by decide)
  have dispatched : (Router.routes registry Deployment.root).dispatch? "/artifacts/a%22b.ll" =
      some (.artifact, "a%22b.ll") := by
    rw [Router.dispatch_iff accepted (by decide) registry free]
    have reaches := @Reaches.artifact registry Deployment.root "a%22b.ll" (by decide) (by decide)
    rw [ruled] at reaches
    exact reaches (by decide)
  have file : (⟨registry, Deployment.root, "public"⟩ : Site).artifactFile "a\"b.ll" = "public/artifacts/a\"b.ll" := by
    rw [Site.artifactFile, ruled]
    exact show Path.join (Path.join "public" ({} : ArtifactRule).folder) "a\"b.ll" = "public/artifacts/a\"b.ll" by decide
  have response := (gets_dispatched ⟨registry, Deployment.root, "public"⟩ _ quotedShelf _ .artifact _ asked
    dispatched).answered _ rfl asked
  rw [artifact_answered _ quotedShelf _ _ [120] decoded plain (by rw [file, quoted_shelf_read])] at response
  refine ⟨registry, _, "attachment; filename=\"a\"b.ll\"", built, made, decoded, ?_, ?_⟩
  · rw [asked, Option.bind_some, dispatched]
  · rw [response]
    decide

end Showcase.Server
