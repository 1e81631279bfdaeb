import Showcase.Proofs.Occurrence
import Showcase.Proofs.Selection

set_option autoImplicit false

namespace Showcase

namespace Html

/-- A newline right behind the start tag is not part of a pane. -/
def dropNewline : List Char → List Char
  | [] => []
  | c :: rest => if c = '\n' then rest else c :: rest

def shown (content : String) : String := String.ofList (dropNewline content.toList)

def paneText (rest : List Char) : String :=
  unescape (String.ofList (dropNewline (rest.takeWhile fun c => c != '<')))

def panes (text : String) : List String := (Text.behind Page.paneMark text.toList).map paneText

theorem shown_literal (chars : List Char) : shown (String.ofList chars) = String.ofList (dropNewline chars) := by
  rw [shown, String.toList_ofList]

theorem shown_iff (content : String) : shown content = content ↔ content.toList.head? ≠ some '\n' := by
  rw [shown, ← String.toList_inj, String.toList_ofList]
  cases content.toList with
  | nil => simp [dropNewline]
  | cons c rest =>
      by_cases newline : c = '\n'
      · simp [dropNewline, newline]
      · simp [dropNewline, newline]

theorem escape_char_first (c : Char) (other : c ≠ '\n') :
    ∃ first rest, escapeChar c = first :: rest ∧ first ≠ '\n' := by
  unfold escapeChar
  split
  · exact ⟨_, _, rfl, by decide⟩
  · exact ⟨_, _, rfl, by decide⟩
  · exact ⟨_, _, rfl, by decide⟩
  · exact ⟨_, _, rfl, by decide⟩
  · exact ⟨_, _, rfl, by decide⟩
  · exact ⟨c, [], rfl, other⟩

theorem drop_newline_escape (raw : List Char) : dropNewline (escapeChars raw) = escapeChars (dropNewline raw) := by
  cases raw with
  | nil => rfl
  | cons c rest =>
      by_cases newline : c = '\n'
      · subst newline
        rfl
      · obtain ⟨first, others, written, different⟩ := escape_char_first c newline
        rw [dropNewline, if_neg newline, escape_chars_cons, written, List.cons_append, dropNewline, if_neg different]

theorem pane_text_field (raw : String) (tag : List Char) (rest : List Part) :
    paneText (render (.text raw :: .markup (String.ofList ('<' :: tag)) :: rest)).toList = shown raw := by
  have plain : ∀ c ∈ (escape raw).toList, (c == '<') = false := by
    intro c member
    have unmarked := escape_members raw c member
    simp only [isMark, Bool.or_eq_false_iff] at unmarked
    exact unmarked.1.1.1
  have text : (render (.text raw :: .markup (String.ofList ('<' :: tag)) :: rest)).toList =
      (escape raw).toList ++ '<' :: (tag ++ (render rest).toList) := by
    simp [render_cons, Part.render]
  have cut := (Text.cut_where (· == '<') _ ('<' :: (tag ++ (render rest).toList)) plain (by simp)).1
  have content : (escape raw).toList = escapeChars raw.toList := String.toList_ofList
  have chars : String.ofList (escapeChars (dropNewline raw.toList)) = escape (shown raw) := by
    rw [escape, shown, String.toList_ofList]
  rw [paneText, text, show (fun c => c != '<') = fun c => !(c == '<') from rfl, cut, content, drop_newline_escape,
    chars, unescape_escape]

end Html

namespace Page

open Html (Found found_literal found_field found_front found_back sharp_literal sharp_append ends_literal shown)

theorem any_link_found (item : NavItem) : Found paneMark (navParts item) [] := by
  cases active : item.active with
  | false => exact link_found pane_listed item active
  | true =>
      have listed : paneMark ∈ [paneMark] := List.mem_singleton_self paneMark
      rw [nav_parts_active item active]
      exact found_literal listed rfl (found_field listed rfl rfl (found_field listed rfl rfl .nil))

theorem sample_found (view : View) :
    Found paneMark (samplePartsOf view) [(samplePartsOf view).drop 7, (samplePartsOf view).drop 9] := by
  have fromOutput : Found paneMark ((samplePartsOf view).drop 9) [] :=
    found_field pane_listed rfl rfl (found_field pane_listed rfl rfl .nil)
  have fromSource : Found paneMark ((samplePartsOf view).drop 7) [(samplePartsOf view).drop 9] :=
    .field (sharp_literal pane_listed rfl) (.hit (ends_literal rfl) fromOutput)
  have fromLabel : Found paneMark ((samplePartsOf view).drop 5)
      [(samplePartsOf view).drop 7, (samplePartsOf view).drop 9] :=
    .field (sharp_literal pane_listed rfl) (.hit (ends_literal rfl) fromSource)
  exact found_literal pane_listed rfl (.field (sharp_append (sharp_literal pane_listed rfl))
    (.markup (pair_passes pane_listed rfl rfl) (found_field pane_listed rfl rfl fromLabel)))

theorem panes_found (page : Page) :
    Found paneMark page.parts [(samplePartsOf page.view).drop 7 ++ page.footerParts,
      (samplePartsOf page.view).drop 9 ++ page.footerParts] := by
  have links := links_found page.nav fun item _ => any_link_found item
  have front := found_front (found_front (head_found pane_listed page) links) (closing_found pane_listed page)
  have whole := found_back (found_front front (sample_found page.view)) (footer_found pane_listed page)
  rwa [List.append_cons] at whole

theorem panes_render (page : Page) :
    Html.panes page.render = [shown page.view.sourceText, shown page.view.expectedOutput] := by
  rw [Html.panes, render, Html.found_text (searched_alone pane_listed) page.panes_found, List.map_map]
  have source : Html.paneText (Html.render ((samplePartsOf page.view).drop 7 ++ page.footerParts)).toList =
      shown page.view.sourceText := Html.pane_text_field _ _ _
  have output : Html.paneText (Html.render ((samplePartsOf page.view).drop 9 ++ page.footerParts)).toList =
      shown page.view.expectedOutput := Html.pane_text_field _ _ _
  simp only [List.map_cons, List.map_nil, Function.comp_apply, source, output]

end Page

namespace Selection

open Html (panes shown)

section Built

variable {entries : List SampleEntry} {rule : ArtifactRule} {registry : Registry}

theorem panes_after (built : Registry.ofEntries entries rule = .ok registry) (deployment : Deployment)
    (steps : List Step) (notice : Option String) :
    panes (((start registry deployment).after steps).page notice).1.render =
      [shown (shownAfter registry steps).sourceText, shown (shownAfter registry steps).expectedOutput] := by
  have tracks := after_tracks built deployment steps
  rw [page_plain built _ tracks.sameRegistry tracks.coherent, Page.panes_render, tracks.shown]
  rfl

/-- A newline at the start of a text is lost, and nothing else ever is. -/
theorem panes_shown (built : Registry.ofEntries entries rule = .ok registry) (deployment : Deployment)
    (steps : List Step) (notice : Option String) :
    let selection := (start registry deployment).after steps
    let entry := selection.activeEntry
    panes (selection.page notice).1.render = [shown entry.sourceText, shown entry.expectedOutput] ∧
      (panes (selection.page notice).1.render = [entry.sourceText, entry.expectedOutput] ↔
        entry.sourceText.toList.head? ≠ some '\n' ∧ entry.expectedOutput.toList.head? ≠ some '\n') := by
  have read := panes_after built deployment steps notice
  rw [← (after_tracks built deployment steps).shown] at read
  refine ⟨read, ?_⟩
  rw [read, List.cons.injEq, List.cons.injEq, Html.shown_iff, Html.shown_iff, and_iff_left rfl]

end Built

theorem panes_shown_hostile : ∃ registry, Registry.ofEntries hostileEntries ⟨"/x.y/", "txt"⟩ = .ok registry ∧
    panes (((start registry Deployment.root).after [.view, .select "b", .select "<pre>"]).page (some "<pre>")).1.render =
      ["<!--", "&lt;"] := by
  obtain ⟨registry, built⟩ :=
    Registry.of_entries_ok hostileEntries ⟨"/x.y/", "txt"⟩ (by decide) (by decide) (by decide)
  have exactly := (panes_shown built Deployment.root [.view, .select "b", .select "<pre>"] (some "<pre>")).2
  rw [(after_tracks built Deployment.root [.view, .select "b", .select "<pre>"]).shown] at exactly
  obtain ⟨nonempty, index, _, _, rfl⟩ := Registry.of_entries_cases built
  change panes _ = ["<!--", "&lt;"] ↔ "<!--".toList.head? ≠ some '\n' ∧ "&lt;".toList.head? ≠ some '\n' at exactly
  exact ⟨_, built, exactly.mpr ⟨by decide, by decide⟩⟩

def spacedEntries : List SampleEntry := [⟨⟨"hello", rfl⟩, "Hello", "\nbegin end.", "1"⟩]

theorem first_newline_lost : ∃ registry, Registry.ofEntries spacedEntries {} = .ok registry ∧
    (start registry Deployment.root).activeEntry.sourceText = "\nbegin end." ∧
    panes ((start registry Deployment.root).page none).1.render = ["begin end.", "1"] := by
  obtain ⟨registry, built⟩ := Registry.of_entries_ok spacedEntries {} (by decide) (by decide) (by decide)
  have read := panes_after built Deployment.root [] none
  obtain ⟨nonempty, index, _, _, rfl⟩ := Registry.of_entries_cases built
  have source : shown "\nbegin end." = "begin end." := Html.shown_literal _
  have output : shown "1" = "1" := Html.shown_literal _
  refine ⟨_, built, rfl, ?_⟩
  rw [← source, ← output]
  exact read

end Selection

end Showcase
