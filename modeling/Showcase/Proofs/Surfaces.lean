import Showcase.Command.Run
import Showcase.Proofs.Clashes
import Showcase.Proofs.Effects
import Showcase.Proofs.Json
import Showcase.Proofs.Links
import Showcase.Proofs.Markup

set_option autoImplicit false

namespace Showcase

namespace Page

def Noticed (message before after : String) : Prop :=
  ∃ front text back, before = front ++ back ∧
    after = front ++ "<div class=\"panel notice\" role=\"alert\">" ++ text ++ "</div>\n" ++ back ∧
    Html.skeleton text = "" ∧ Html.unescape text = message

theorem render_noticed (page : Page) (quiet : page.notice = none) (message : String) :
    Noticed message page.render { page with notice := some message }.render := by
  have block : Html.render (noticeParts (some message)) =
      "<div class=\"panel notice\" role=\"alert\">" ++ Html.escape message ++ "</div>\n" := by
    simp [noticeParts, Html.render, Html.Part.render, String.join_cons, String.append_assoc]
  refine ⟨Html.render (page.headParts ++ page.nav.flatMap navParts ++ [.markup "</nav>\n</div>\n</aside>\n<main>\n"]),
    Html.escape message, Html.render (samplePartsOf page.view ++ page.footerParts), ?_, ?_,
    Html.skeleton_escape message, Html.unescape_escape message⟩
  · rw [render, parts, quiet, ← Html.render_append]
    simp [noticeParts]
  · rw [render, parts, List.append_assoc _ (samplePartsOf _), Html.render_append, Html.render_append, block]
    simp only [String.append_assoc]
    rfl

end Page

def Registry.ids (registry : Registry) : List String := registry.entries.map fun entry => entry.id.text

namespace Selection

variable {entries : List SampleEntry} {rule : ArtifactRule} {registry : Registry}

theorem select_viewed (built : Registry.ofEntries entries rule = .ok registry) (deployment : Deployment)
    (entry : SampleEntry) (member : entry ∈ registry.entries) :
    ∃ outcome moved, (start registry deployment).select entry.id.text = .ok (outcome, moved) ∧
      moved.view.1 = View.ofEntry registry deployment entry := by
  have fresh := start_tracks registry deployment
  obtain ⟨outcome, moved, selected, owned, sited, shown, coherent⟩ :=
    select_entry built _ fresh.sameRegistry fresh.coherent entry member
  refine ⟨outcome, moved, selected, ?_⟩
  rw [(view_coherent moved coherent).1, freshView, owned, sited, shown]
  rfl

theorem select_unknown (built : Registry.ofEntries entries rule = .ok registry) (deployment : Deployment) (text : String)
    (unknown : text ∉ registry.ids) :
    (start registry deployment).select text = .error (.unknownSample text) :=
  select_absent (start registry deployment) text ((Registry.position_none_iff built text).mpr unknown)

end Selection

namespace Server

namespace Router

theorem made_rooted (registry : Registry) (deployment : Deployment) (router : Router)
    (made : build registry deployment = .ok router) : deployment.basePath.toList.head? = some '/' := by
  unfold build at made
  dsimp only at made
  split at made
  · cases made
  · rename_i faultless
    unfold fault? at faultless
    dsimp only at faultless
    split at faultless
    · cases faultless
    · rename_i rooted
      have home := List.find?_eq_none.mp rooted (.exact deployment.basePath)
        (List.mem_map_of_mem ((mem_routes_iff registry deployment _ .home).mpr (.inr (.inl rfl))))
      simpa [Pattern.isRooted, Pattern.text] using home

end Router

def Response.content? {α : Type} (response : Response) (read : List Char → Except Json.Fault (α × List Char)) :
    Option α :=
  (Text.ofUtf8? response.body).bind fun text => (Json.document read text).toOption

theorem content_json {α : Type} (status : Nat) (text : String)
    (read : List Char → Except Json.Fault (α × List Char)) (a : α) (whole : Json.document read text = .ok a) :
    (Response.json status text).content? read = some a := by
  rw [Response.content?, Response.json, Text.of_utf8_utf8, Option.bind_some, whole]
  rfl

theorem content_record {α : Type} (layout : Record.Layout α) (faithful : layout.Faithful) (status : Nat) (a : α) :
    (Response.json status (Json.compact layout a)).content? (Json.record layout) = some a :=
  content_json status _ _ a (Json.document_compact layout faithful a)

theorem content_records {α : Type} (layout : Record.Layout α) (faithful : layout.Faithful) (status : Nat)
    (items : List α) :
    (Response.json status (Json.compactList layout items)).content? (Json.array (Json.record layout)) = some items := by
  have read := Json.array_written layout faithful items []
  rw [List.append_nil] at read
  exact content_json status _ _ items (Json.document_read _ _ items [] (by simp) read)

structure Asks (request : Request) (path : String) : Prop where
  reading : request.method = "GET"
  asked : request.path? = some path

theorem respond_dispatched (site : Site) (router : Router) (tree : FileTree) (request : Request) (path : String)
    (endpoint : Endpoint) (segment : String) (asks : Asks request path)
    (dispatched : router.dispatch? path = some (endpoint, segment)) :
    site.respond router tree request = site.answer tree endpoint segment := by
  rw [Site.respond, asks.asked, Option.bind_some, dispatched]
  exact if_pos asks.reading

end Server

namespace Command

open FileTree

theorem parse_show (text : String) : parse ["show", "--", text] = .ok ({}, .view text) := rfl

theorem show_sample_entry {entries : List SampleEntry} {rule : ArtifactRule} {registry : Registry}
    (built : Registry.ofEntries entries rule = .ok registry) (deployment : Deployment) (settings : Settings)
    (tree : FileTree) (catalog : settings.registry tree = .ok registry) (sited : settings.deployment = .ok deployment)
    (entry : SampleEntry) (member : entry ∈ registry.entries) :
    showSample settings tree entry.id.text =
      .ok (Json.pretty View.layout (View.ofEntry registry deployment entry) ++ "\n") := by
  obtain ⟨outcome, moved, selected, viewed⟩ := Selection.select_viewed built deployment entry member
  simp only [showSample, catalog, sited, selected, Except.mapError, bind, Except.bind, viewed]
  rfl

theorem run_show (environment : Environment) (tree : FileTree) (settings : Settings) (text output : String)
    (loaded : Settings.load tree environment = .ok settings) (shown : showSample settings tree text = .ok output) :
    run ["show", "--", text] environment tree = (.printed output, tree) := by
  have chosen : Choices.settings {} environment tree = .ok settings := by
    rw [Choices.settings, loaded]
    rfl
  have performed : (perform environment {} (.view text)).run tree = (.ok output, tree) := by
    refine (run_get _ tree).trans ?_
    refine (run_bind_value (liftM (Choices.settings {} environment tree)) _ tree tree settings ?_).trans ?_
    · rw [run_attempt, chosen]
    · exact (run_attempt (showSample settings tree text) tree).trans (by rw [shown])
  rw [run, parse_show]
  dsimp only
  rw [performed]

theorem output_record {α : Type} (layout : Record.Layout α) (faithful : layout.Faithful)
    (nonempty : layout.fields ≠ []) (a : α) :
    Json.document (Json.record layout) (Outcome.printed (Json.pretty layout a ++ "\n")).output = .ok a := by
  have read := Json.record_written layout faithful Json.Spacing.lines a ['\n']
  rw [← Json.pretty_list layout nonempty a] at read
  refine Json.document_read _ _ a ['\n'] (by simp [Json.isBlank]) ?_
  rw [Outcome.output, String.toList_append]
  exact read

end Command

namespace Server

structure Agree (site : Site) (router : Router) (tree : FileTree) (text : String) (view page : Response) : Prop where
  viewed : text ∈ site.registry.ids ↔ view.status = 200
  paged : text ∈ site.registry.ids ↔ page.status = 200
  known : ∀ entry ∈ site.registry.entries, entry.id.text = text →
    view.content? (Json.record View.layout) = some (View.ofEntry site.registry site.deployment entry) ∧
      page = .html 200 (plainPage site.registry site.deployment entry none).render
  unknown : text ∉ site.registry.ids →
    view.status = 404 ∧
      view.content? (Json.record ApiError.layout) = some ⟨.notFound, "unknown sample '" ++ text ++ "'"⟩ ∧
      ∀ request, Asks request site.deployment.basePath → ∃ index noticed,
        site.respond router tree request = .html 200 index ∧ page = .html 404 noticed ∧
          Page.Noticed ("unknown sample '" ++ text ++ "'") index noticed

section Surfaces

variable {entries : List SampleEntry} {rule : ArtifactRule} {registry : Registry}
variable {basePath : String} {deployment : Deployment} {router : Router}

theorem made_dispatch (accepted : Deployment.ofBasePath basePath = .ok deployment)
    (free : ensureFolderFree registry = .ok ()) (made : Router.build registry deployment = .ok router)
    (path : String) (endpoint : Endpoint) (segment : String) (reaches : Reaches registry deployment path endpoint segment) :
    router.dispatch? path = some (endpoint, segment) := by
  have rooted := Router.made_rooted registry deployment router made
  have notHealth : deployment.basePath ≠ "/healthz/" := by
    intro health
    rw [Router.build_health accepted rooted health registry] at made
    cases made
  rw [Router.built_routes registry deployment router made]
  exact (Router.dispatch_iff accepted notHealth registry free path endpoint segment).mpr reaches

theorem known_agree (built : Registry.ofEntries entries rule = .ok registry) (deployment : Deployment)
    (publicDirectory : String) (router : Router) (tree : FileTree) (entry : SampleEntry)
    (member : entry ∈ registry.entries) :
    let site : Site := ⟨registry, deployment, publicDirectory⟩
    Agree site router tree entry.id.text (site.view entry.id.text) (site.sample entry.id.text) := by
  intro site
  have listed : entry.id.text ∈ registry.ids := List.mem_map_of_mem member
  obtain ⟨outcome, moved, selected, shown⟩ := Selection.select_viewed built deployment entry member
  have view : site.view entry.id.text =
      .json 200 (Json.compact View.layout (View.ofEntry registry deployment entry)) := by
    rw [← shown, Site.view, Site.selection, selected]
  rw [view, sample_answer built deployment publicDirectory entry member]
  refine ⟨⟨fun _ => rfl, fun _ => listed⟩, ⟨fun _ => rfl, fun _ => listed⟩, ?_, fun unknown => absurd listed unknown⟩
  intro other inside same
  have one : other = entry := Registry.entry_of_id built other entry inside member (SampleId.text_injective same)
  subst one
  exact ⟨content_record _ View.layout_faithful 200 _, rfl⟩

theorem unknown_agree (built : Registry.ofEntries entries rule = .ok registry) (deployment : Deployment)
    (publicDirectory : String) (router : Router) (tree : FileTree) (text : String)
    (home : router.dispatch? deployment.basePath = some (.home, ""))
    (unknown : text ∉ registry.ids) :
    let site : Site := ⟨registry, deployment, publicDirectory⟩
    Agree site router tree text (site.view text) (site.sample text) := by
  intro site
  have refused := Selection.select_unknown built deployment text unknown
  have view : site.view text = .json 404 (Json.compact ApiError.layout (Error.unknownSample text).toApi) := by
    rw [Site.view, Site.selection, refused]
  have page : site.sample text = .html 404 (site.selection.page (some (Error.unknownSample text).message)).1.render := by
    rw [Site.sample, Site.selection, refused]
  rw [view, page]
  refine ⟨?_, ?_, ?_, ?_⟩
  · exact ⟨fun listed => absurd listed unknown, fun status => absurd status (show 404 ≠ 200 by decide)⟩
  · exact ⟨fun listed => absurd listed unknown, fun status => absurd status (show 404 ≠ 200 by decide)⟩
  · intro entry member same
    exact absurd (List.mem_map.mpr ⟨entry, member, same⟩) unknown
  · intro _
    refine ⟨rfl, content_record _ ApiError.layout_faithful 404 _, ?_⟩
    intro request asks
    refine ⟨_, _, respond_dispatched site router tree request _ _ _ asks home, rfl, ?_⟩
    exact Page.render_noticed (site.selection.page none).1 rfl _

theorem summaries_listed (free : ensureFolderFree registry = .ok ())
    (accepted : Deployment.ofBasePath basePath = .ok deployment)
    (made : Router.build registry deployment = .ok router) (publicDirectory : String) (tree : FileTree)
    (request : Request) (asks : Asks request (deployment.basePath ++ "api/samples")) :
    let response := (⟨registry, deployment, publicDirectory⟩ : Site).respond router tree request
    response.status = 200 ∧
      response.content? (Json.array (Json.record SampleSummary.layout)) = some registry.summaries := by
  intro response
  have answered : response = .json 200 (Json.compactList SampleSummary.layout registry.summaries) :=
    respond_dispatched _ router tree request _ _ _ asks (made_dispatch accepted free made _ _ _ .summaries)
  rw [answered]
  exact ⟨rfl, content_records _ SampleSummary.layout_faithful 200 _⟩

theorem segment_answered (free : ensureFolderFree registry = .ok ())
    (accepted : Deployment.ofBasePath basePath = .ok deployment)
    (made : Router.build registry deployment = .ok router) (publicDirectory : String) (tree : FileTree)
    (segment text : String) (plain : '/' ∉ segment.toList) (decoded : Text.Percent.decode? segment = some text)
    (nonempty : text ≠ "") :
    let site : Site := ⟨registry, deployment, publicDirectory⟩
    (∀ request, Asks request (deployment.basePath ++ "api/samples/" ++ segment) →
      site.respond router tree request = site.view text) ∧
    ∀ request, Asks request (deployment.basePath ++ "samples/" ++ segment) →
      site.respond router tree request = site.sample text := by
  intro site
  have present : segment ≠ "" := by
    rintro rfl
    cases decoded
    exact nonempty rfl
  have dispatched := made_dispatch accepted free made
  constructor
  · intro request asks
    rw [respond_dispatched site router tree request _ _ _ asks (dispatched _ _ _ (.view segment plain present)),
      Site.answer, Site.withSegment, decoded]
  · intro request asks
    rw [respond_dispatched site router tree request _ _ _ asks (dispatched _ _ _ (.sample segment plain present)),
      Site.answer, Site.withSegment, decoded]

theorem surfaces_agree (built : Registry.ofEntries entries rule = .ok registry)
    (free : ensureFolderFree registry = .ok ()) (accepted : Deployment.ofBasePath basePath = .ok deployment)
    (made : Router.build registry deployment = .ok router) (publicDirectory : String) (tree : FileTree) :
    let site : Site := ⟨registry, deployment, publicDirectory⟩
    (∀ request, Asks request (deployment.basePath ++ "api/samples") →
      (site.respond router tree request).status = 200 ∧ ∃ summaries,
        (site.respond router tree request).content? (Json.array (Json.record SampleSummary.layout)) = some summaries ∧
          summaries.map (fun summary => summary.id.text) = registry.ids) ∧
    (∀ segment text, '/' ∉ segment.toList → Text.Percent.decode? segment = some text → text ≠ "" →
      ∀ viewRequest pageRequest, Asks viewRequest (deployment.basePath ++ "api/samples/" ++ segment) →
        Asks pageRequest (deployment.basePath ++ "samples/" ++ segment) →
          Agree site router tree text (site.respond router tree viewRequest) (site.respond router tree pageRequest)) ∧
    (∀ environment settings folder, Settings.load folder environment = .ok settings →
      settings.registry folder = .ok registry → settings.deployment = .ok deployment → ∀ entry ∈ registry.entries,
        ∃ outcome, Command.run ["show", "--", entry.id.text] environment folder = (outcome, folder) ∧
          outcome.exitCode = 0 ∧
          Json.document (Json.record View.layout) outcome.output = .ok (View.ofEntry registry deployment entry)) := by
  intro site
  refine ⟨?_, ?_, ?_⟩
  · intro request asks
    obtain ⟨status, listed⟩ := summaries_listed free accepted made publicDirectory tree request asks
    refine ⟨status, registry.summaries, listed, ?_⟩
    rw [Registry.summaries, List.map_map]
    rfl
  · intro segment text plain decoded nonempty viewRequest pageRequest asksView asksPage
    obtain ⟨view, page⟩ :=
      segment_answered free accepted made publicDirectory tree segment text plain decoded nonempty
    rw [view viewRequest asksView, page pageRequest asksPage]
    by_cases listed : text ∈ registry.ids
    · obtain ⟨entry, member, same⟩ := List.mem_map.mp listed
      subst same
      exact known_agree built deployment publicDirectory router tree entry member
    · have home := made_dispatch accepted free made _ _ _ .home
      exact unknown_agree built deployment publicDirectory router tree text home listed
  · intro environment settings folder loaded catalog sited entry member
    have shown := Command.show_sample_entry built deployment settings folder catalog sited entry member
    exact ⟨_, Command.run_show environment folder settings entry.id.text _ loaded shown, rfl,
      Command.output_record View.layout View.layout_faithful (by decide) _⟩

end Surfaces

theorem surfaces_agree_escaped : ∃ registry router,
    Registry.builtin = .ok registry ∧ ensureFolderFree registry = .ok () ∧
    Deployment.ofBasePath "/demo" = .ok ⟨"/demo/"⟩ ∧ Router.build registry ⟨"/demo/"⟩ = .ok router ∧
    let site : Site := ⟨registry, ⟨"/demo/"⟩, "public"⟩
    let known : Request := { uri := "/demo/api/samples/%74est1" }
    let knownPage : Request := { uri := "/demo/samples/%74est1" }
    let unknown : Request := { uri := "http://localhost/demo/api/samples/%3Cb%3E%26?all" }
    let unknownPage : Request := { uri := "/demo/samples/%3Cb%3E%26" }
    let index : Request := { uri := "/demo/" }
    Text.Percent.decode? "%74est1" = some "test1" ∧ Text.Percent.decode? "%3Cb%3E%26" = some "<b>&" ∧
    (site.respond router FileTree.empty known).status = 200 ∧
    (site.respond router FileTree.empty knownPage).status = 200 ∧
    (site.respond router FileTree.empty unknown).content? (Json.record ApiError.layout) =
      some ⟨.notFound, "unknown sample '<b>&'"⟩ ∧
    (∃ plain noticed, site.respond router FileTree.empty index = .html 200 plain ∧
      site.respond router FileTree.empty unknownPage = .html 404 noticed ∧
      Page.Noticed "unknown sample '<b>&'" plain noticed) ∧
    ∃ outcome, Command.run ["show", "--", "test1"] (fun name => if name = "BASE_URL" then some "/demo" else none)
        FileTree.empty = (outcome, FileTree.empty) ∧ outcome.exitCode = 0 := by
  obtain ⟨registry, built⟩ := Registry.builtin_ok
  obtain ⟨listed, ruled, _⟩ := Registry.of_entries_rule built
  have free := default_folder_free registry ruled
  have accepted : Deployment.ofBasePath "/demo" = .ok ⟨"/demo/"⟩ := by decide
  have made := Router.build_ok accepted rfl (by decide) registry free
  have test1 : "test1" ∈ registry.ids := by
    rw [Registry.ids, listed]
    decide
  have markup : "<b>&" ∉ registry.ids := by
    rw [Registry.ids, listed]
    decide
  have escapedId : Text.Percent.decode? "%74est1" = some "test1" := by decide
  have escapedMarkup : Text.Percent.decode? "%3Cb%3E%26" = some "<b>&" := by decide
  obtain ⟨_, agree, shown⟩ := surfaces_agree built free accepted made "public" FileTree.empty
  have known := agree "%74est1" "test1" (by decide) escapedId (by decide) { uri := "/demo/api/samples/%74est1" }
    { uri := "/demo/samples/%74est1" } ⟨rfl, by decide⟩ ⟨rfl, by decide⟩
  have unknown := agree "%3Cb%3E%26" "<b>&" (by decide) escapedMarkup (by decide)
    { uri := "http://localhost/demo/api/samples/%3Cb%3E%26?all" } { uri := "/demo/samples/%3Cb%3E%26" }
    ⟨rfl, by decide⟩ ⟨rfl, by decide⟩
  obtain ⟨entry, member, same⟩ := List.mem_map.mp test1
  have loaded : Settings.load FileTree.empty (fun name => if name = "BASE_URL" then some "/demo" else none) =
      .ok { basePath := some "/demo" } := by
    decide +kernel
  have catalog : Settings.registry { basePath := some "/demo" } FileTree.empty = .ok registry := by
    rw [Settings.registry, Registry.builtin, built]
    rfl
  obtain ⟨outcome, run, code, _⟩ := shown _ _ _ loaded catalog accepted entry member
  rw [same] at run
  have index : Asks { uri := "/demo/" } "/demo/" := ⟨rfl, by decide⟩
  obtain ⟨_, content, page⟩ := unknown.unknown markup
  exact ⟨registry, _, built, free, accepted, made, escapedId, escapedMarkup, known.viewed.mp test1,
    known.paged.mp test1, content, page _ index, outcome, run, code⟩

end Server

end Showcase
