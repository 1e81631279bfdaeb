import Showcase.Proofs.Disclosure
import Showcase.Proofs.Lookup

set_option autoImplicit false

namespace Showcase

open FileTree (Name)

/-- An address cut at the marks of the generic syntax of URIs. A backslash is a plain character of it, where a browser
takes it for a slash. -/
structure Reference where
  scheme : Option (List Char) := none
  host : Option (List Char) := none
  path : List Char
  query : Option (List Char) := none
  fragment : Option (List Char) := none
deriving DecidableEq

namespace Reference

def cutOff (mark : Char) (text : List Char) : List Char × Option (List Char) :=
  match text.dropWhile (· != mark) with
  | [] => (text, none)
  | _ :: rest => (text.takeWhile (· != mark), some rest)

/-- A colon behind the first slash is part of the path. -/
def cutScheme (address : List Char) : Option (List Char) × List Char :=
  match cutOff ':' address with
  | (_, none) => (none, address)
  | (word, some rest) => if word = [] ∨ '/' ∈ word then (none, address) else (some word, rest)

def cutHost : List Char → Option (List Char) × List Char
  | '/' :: '/' :: rest => (some (rest.takeWhile (· != '/')), rest.dropWhile (· != '/'))
  | path => (none, path)

def ofText (text : String) : Reference :=
  let (front, fragment) := cutOff '#' text.toList
  let (address, query) := cutOff '?' front
  let (scheme, behind) := cutScheme address
  let (host, path) := cutHost behind
  { scheme, host, path, query, fragment }

theorem cut_off_absent (mark : Char) (text : List Char) (absent : mark ∉ text) : cutOff mark text = (text, none) := by
  have whole : text.dropWhile (· != mark) = [] := by
    rw [List.dropWhile_eq_nil_iff]
    intro c member
    simpa using fun same : c = mark => absent (same ▸ member)
  rw [cutOff, whole]

theorem cut_host_absent (path : List Char) (hostless : ¬ ['/', '/'] <+: path) : cutHost path = (none, path) := by
  unfold cutHost
  split
  · exact absurd (List.prefix_append ['/', '/'] _) hostless
  · rfl

structure Local (link : String) : Prop where
  hostless : ¬ ['/', '/'] <+: link.toList
  plain : ∀ c ∈ link.toList, BasePath.Plain c
  read : ofText link = { path := link.toList }

theorem local_plain (link : String) (hostless : ¬ ['/', '/'] <+: link.toList)
    (plain : ∀ c ∈ link.toList, BasePath.Plain c) : Local link := by
  have fragment := cut_off_absent '#' link.toList fun member => (plain _ member).fragment rfl
  have query := cut_off_absent '?' link.toList fun member => (plain _ member).query rfl
  have scheme := cut_off_absent ':' link.toList fun member => (plain _ member).colon rfl
  refine ⟨hostless, plain, ?_⟩
  simp only [ofText, fragment, query, cutScheme, scheme, cut_host_absent _ hostless]

example : ofText "http://host:80/a:b?c=/#d" =
    ⟨some "http".toList, some "host:80".toList, "/a:b".toList, some "c=/".toList, some "d".toList⟩ := by decide

theorem doubled_front (front rest : List Char) (present : front ≠ []) (doubled : ['/', '/'] <+: front ++ rest) :
    ['/', '/'] <+: front ∨ rest.head? = some '/' := by
  rcases front with _ | ⟨first, _ | ⟨second, others⟩⟩
  · exact absurd rfl present
  · right
    obtain ⟨behind, split⟩ := doubled
    have later : '/' :: behind = rest := (List.cons.inj split).2
    rw [← later]
    rfl
  · left
    simpa using doubled

end Reference

def Named (segment : List Char) : Prop := segment ≠ [] ∧ segment ≠ ['.'] ∧ segment ≠ ['.', '.']

theorem name_named (name : Name) : Named name.text.toList := by
  obtain ⟨nonempty, dot, dots, _⟩ := (FileTree.is_name_iff name.text).mp name.valid
  have other : ∀ text : String, name.text ≠ text → name.text.toList ≠ text.toList :=
    fun text different same => different (String.toList_inj.mp same)
  exact ⟨other "" nonempty, other "." dot, other ".." dots⟩

theorem page_segments (id : SampleId) :
    Text.segments id.pagePath.toList = ["samples".toList, id.text.toList] ++ [[]] := by
  have behind := Server.segments_behind ("samples" ++ "/" ++ id.text) "" (by simp)
  rw [String.append_empty, Server.segments_behind "samples" id.text (id.avoids '/' (by decide))] at behind
  exact behind

theorem page_segments_named (id : SampleId) : ∀ segment ∈ ["samples".toList, id.text.toList], Named segment := by
  intro segment member
  simp only [List.mem_cons, List.not_mem_nil, or_false] at member
  rcases member with rfl | rfl
  · exact name_named ⟨"samples", by decide⟩
  · exact name_named ⟨id.text, id.proper⟩

section Links

variable {registry : Registry} {basePath : String} {deployment : Deployment}

theorem file_segments_named (faultless : registry.rule.fault? = none) (id : SampleId) :
    ∀ segment ∈ Text.segments (registry.rule.relativePath id).toList, Named segment := by
  obtain ⟨folders, texts, _⟩ := Server.folder_names faultless
  have plain := (Server.plain_name_iff _).mp (Server.Site.file_name_served faultless id)
  intro segment member
  rw [ArtifactRule.relative_path_eq, Server.folder_segments _ _ plain.slashless, ← texts, List.mem_append] at member
  rcases member with folder | file
  · obtain ⟨name, _, rfl⟩ := List.mem_map.mp folder
    exact name_named name
  · rw [List.mem_singleton.mp file]
    exact name_named ⟨_, Server.plain_name_proper _ plain⟩

theorem link_local (accepted : Deployment.ofBasePath basePath = .ok deployment) (rest : String)
    (relative : rest.toList.head? ≠ some '/')
    (members : ∀ c ∈ rest.toList, ArtifactRule.isSegmentChar c = true ∨ c = '/') :
    Reference.Local (deployment.basePath ++ rest) := by
  have present : deployment.basePath.toList ≠ [] := by
    rw [Deployment.base_path_slash accepted]
    simp
  apply Reference.local_plain
  · rw [String.toList_append]
    intro doubled
    rcases Reference.doubled_front _ _ present doubled with front | slash
    · exact Deployment.base_path_hostless accepted front
    · exact relative slash
  · intro c member
    rw [String.toList_append, List.mem_append] at member
    rcases member with front | behind
    · exact Deployment.base_path_plain accepted c front
    · exact BasePath.segment_plain c (members c behind)

theorem page_link (accepted : Deployment.ofBasePath basePath = .ok deployment) (id : SampleId) :
    deployment.resolve id.pagePath = deployment.basePath ++ id.pagePath :=
  Deployment.resolve_append accepted id.pagePath (Server.page_path_head id)

theorem file_link (accepted : Deployment.ofBasePath basePath = .ok deployment)
    (faultless : registry.rule.fault? = none) (entry : SampleEntry) :
    (View.ofEntry registry deployment entry).downloadHref =
      deployment.basePath ++ registry.rule.relativePath entry.id :=
  Deployment.resolve_append accepted _ (ArtifactRule.relative_path_head faultless entry.id)

theorem nav_links {entries : List SampleEntry} {rule : ArtifactRule}
    (built : Registry.ofEntries entries rule = .ok registry)
    (accepted : Deployment.ofBasePath basePath = .ok deployment) (steps : List Selection.Step) :
    ((Selection.start registry deployment).after steps).nav.map NavItem.href =
      registry.entries.map fun entry => deployment.basePath ++ entry.id.pagePath := by
  have tracks := Selection.after_tracks built deployment steps
  rw [Selection.nav_tracks built deployment steps _ tracks, plainNav, List.map_map]
  apply List.map_congr_left
  intro entry _
  exact page_link accepted entry.id

theorem page_apart_file (faultless : registry.rule.fault? = none) (id other : SampleId) :
    id.pagePath ≠ registry.rule.relativePath other := by
  intro same
  -- the path of a page has an empty segment at its end, the path of a file has none
  have last : [] ∈ Text.segments id.pagePath.toList := by
    rw [page_segments]
    exact List.mem_append_right _ List.mem_cons_self
  rw [same] at last
  exact (file_segments_named faultless other [] last).1 rfl

theorem behind_injective (base : String) {α : Type} (path : α → String) (injective : Function.Injective path) :
    Function.Injective fun a => base ++ path a := by
  intro a b same
  have texts := congrArg String.toList same
  simp only [String.toList_append, List.append_cancel_left_eq] at texts
  exact injective (String.toList_inj.mp texts)

theorem links_distinct {entries : List SampleEntry} {rule : ArtifactRule}
    (built : Registry.ofEntries entries rule = .ok registry) (base : String) :
    ((registry.entries.map fun entry => base ++ entry.id.pagePath) ++
      registry.entries.map fun entry => base ++ registry.rule.relativePath entry.id).Nodup := by
  have ids := Registry.ids_distinct built
  have pages := ids.map (behind_injective base _ SampleId.page_path_injective)
  have files := ids.map (behind_injective base _ registry.rule.relative_path_injective)
  rw [List.map_map] at pages files
  refine List.nodup_append.mpr ⟨pages, files, ?_⟩
  rintro page first file second rfl
  obtain ⟨entry, _, here⟩ := List.mem_map.mp first
  obtain ⟨other, _, there⟩ := List.mem_map.mp second
  have same := congrArg String.toList (here.trans there.symm)
  simp only [String.toList_append, List.append_cancel_left_eq] at same
  exact page_apart_file (Registry.of_entries_rule built).2.2 entry.id other.id (String.toList_inj.mp same)

end Links

theorem links_on_site (registry : Registry) (obtained : registry.Obtained) (deployment : Deployment)
    (hosted : deployment.Obtained) (steps : List Selection.Step) :
    let base := deployment.basePath
    let pages := ((Selection.start registry deployment).after steps).nav.map NavItem.href
    let files := registry.entries.map fun entry => (View.ofEntry registry deployment entry).downloadHref
    deployment.Settled ∧
    pages.length = registry.size ∧ files.length = registry.size ∧ (pages ++ files).Nodup ∧
    (∀ link ∈ pages, ∃ rest segments, link = base ++ rest ∧ Text.segments rest.toList = segments ++ [[]] ∧
      ∀ segment ∈ segments, Named segment) ∧
    (∀ link ∈ files, ∃ rest, link = base ++ rest ∧ ∀ segment ∈ Text.segments rest.toList, Named segment) ∧
    ∀ link ∈ pages ++ files, Reference.Local link := by
  obtain ⟨entries, rule, built⟩ := Registry.obtained_built registry obtained
  obtain ⟨basePath, accepted⟩ := Deployment.obtained_accepted deployment hosted
  have faultless := (Registry.of_entries_rule built).2.2
  intro base pages files
  have paged : pages = registry.entries.map fun entry => base ++ entry.id.pagePath := nav_links built accepted steps
  have filed : files = registry.entries.map fun entry => base ++ registry.rule.relativePath entry.id :=
    List.map_congr_left fun entry _ => file_link accepted faultless entry
  rw [paged, filed]
  refine ⟨Deployment.accepted_settled accepted, ?_, ?_, links_distinct built base, ?_, ?_, ?_⟩
  · rw [List.length_map, Registry.size]
  · rw [List.length_map, Registry.size]
  · intro link member
    obtain ⟨entry, _, rfl⟩ := List.mem_map.mp member
    exact ⟨_, _, rfl, page_segments entry.id, page_segments_named entry.id⟩
  · intro link member
    obtain ⟨entry, _, rfl⟩ := List.mem_map.mp member
    exact ⟨_, rfl, file_segments_named faultless entry.id⟩
  · intro link member
    rcases List.mem_append.mp member with page | file
    · obtain ⟨entry, _, rfl⟩ := List.mem_map.mp page
      exact link_local accepted _ (Server.page_path_head entry.id) entry.id.page_path_members
    · obtain ⟨entry, _, rfl⟩ := List.mem_map.mp file
      exact link_local accepted _ (ArtifactRule.relative_path_head faultless entry.id)
        (ArtifactRule.relative_path_members faultless entry.id)

theorem links_on_site_relative : ∃ registry, Registry.ofDocument Registry.leaflet = .ok registry ∧
    Deployment.ofBasePath "docs//v1///" = .ok ⟨"docs//v1/"⟩ ∧ (⟨"docs//v1/"⟩ : Deployment).Settled ∧
    ((Selection.start registry ⟨"docs//v1/"⟩).after [.select "back"]).nav.map NavItem.href =
      ["docs//v1/samples/front/", "docs//v1/samples/back/"] ∧
    (((Selection.start registry ⟨"docs//v1/"⟩).after [.select "back"]).nav.map NavItem.href ++
      registry.entries.map fun entry => (View.ofEntry registry ⟨"docs//v1/"⟩ entry).downloadHref).Nodup ∧
    Reference.ofText "docs//v1/samples/back/" = { path := "docs//v1/samples/back/".toList } := by
  obtain ⟨registry, read, listed⟩ := Registry.leaflet_ok
  have accepted : Deployment.ofBasePath "docs//v1///" = .ok ⟨"docs//v1/"⟩ := by decide
  obtain ⟨settled, _, _, distinct, _, _, plain⟩ :=
    links_on_site registry (.document Registry.leaflet read) ⟨"docs//v1/"⟩ (.basePath _ accepted) [.select "back"]
  obtain ⟨entries, rule, built⟩ := Registry.obtained_built registry (.document Registry.leaflet read)
  have pages := nav_links built accepted [.select "back"]
  rw [listed] at pages
  refine ⟨registry, read, accepted, settled, pages, distinct, (plain _ ?_).read⟩
  rw [pages]
  exact List.mem_append_left _ (by decide)

end Showcase
