import Mathlib.Data.List.FinRange
import Showcase.Proofs.Occurrence

set_option autoImplicit false

namespace Showcase

namespace Page

open Html (Part Found found_literal found_field found_front found_back sharp_literal sharp_append)

def currentText : String := "aria-current=\"page\""

def activeParts (item : NavItem) : List Part :=
  [.markup "<a class=\"sample active\" href=\"", .text item.href, .markup "\" aria-current=\"page\"", .markup ">",
   .text item.title, .markup "</a>\n"]

theorem active_render (item : NavItem) (active : item.active = true) :
    Html.render (navParts item) = Html.render (activeParts item) := by
  have attributes : "\" aria-current=\"page\">" = "\" aria-current=\"page\"" ++ ">" := rfl
  simp only [nav_parts_active item active, activeParts, Html.render_cons, Part.render, attributes, String.append_assoc]

theorem active_found (item : NavItem) : Found currentMark (activeParts item) [(activeParts item).drop 3] :=
  found_literal current_listed rfl (.field (sharp_literal (List.mem_singleton_self currentMark) rfl)
    (.hit (Html.ends_literal rfl) (found_literal current_listed rfl (found_field current_listed rfl rfl .nil))))

theorem plain_links_found (items : List NavItem) (plain : ∀ item ∈ items, item.active = false) :
    Found currentMark (items.flatMap navParts) [] :=
  links_found items fun item member => link_found current_listed item (plain item member)

theorem sample_current_free (view : View) : Found currentMark (samplePartsOf view) [] := by
  have listed : currentMark ∈ [currentMark] := List.mem_singleton_self currentMark
  have fromSource : Found currentMark ((samplePartsOf view).drop 7) [] :=
    found_field listed rfl rfl (found_field listed rfl rfl (found_field listed rfl rfl .nil))
  exact found_literal listed rfl (.field (sharp_append (sharp_literal listed rfl))
    (.markup (pair_passes current_listed rfl rfl) (found_field listed rfl rfl (found_field listed rfl rfl fromSource))))

def linkFront (page : Page) (before : List NavItem) : List Part := page.headParts ++ before.flatMap navParts

def linkBack (page : Page) (after : List NavItem) : List Part :=
  after.flatMap navParts ++ ((.markup "</nav>\n</div>\n</aside>\n<main>\n" :: noticeParts page.notice) ++
    (samplePartsOf page.view ++ page.footerParts))

theorem current_cut (page : Page) (before after : List NavItem) (item : NavItem)
    (split : page.nav = before ++ item :: after) (active : item.active = true) :
    page.render = Html.render (linkFront page before ++ (activeParts item ++ linkBack page after)) := by
  simp only [render, parts, split, linkFront, linkBack, List.flatMap_append, List.flatMap_cons, Html.render_append,
    active_render item active, Html.render_cons, String.append_assoc]
  rfl

theorem current_found (page : Page) (before after : List NavItem) (item : NavItem)
    (others : ∀ other ∈ before ++ after, other.active = false) :
    Found currentMark (linkFront page before ++ (activeParts item ++ linkBack page after))
      [(activeParts item).drop 3 ++ linkBack page after] := by
  have front : Found currentMark (linkFront page before) [] :=
    found_front (head_found current_listed page)
      (plain_links_found before fun other member => others other (List.mem_append_left after member))
  have sample := found_front (sample_current_free page.view) (footer_found current_listed page)
  have back : Found currentMark (linkBack page after) [] :=
    found_front (plain_links_found after fun other member => others other (List.mem_append_right before member))
      (found_front (closing_found current_listed page) sample)
  exact found_front front (found_back (active_found item) back)

theorem current_once (page : Page) (before after : List NavItem) (item : NavItem)
    (split : page.nav = before ++ item :: after) (active : item.active = true)
    (others : ∀ other ∈ before ++ after, other.active = false) :
    ∃ front back, Text.Once currentText page.render
      (front ++ "<a class=\"sample active\" href=\"" ++ Html.escape item.href ++ "\" ") (">" ++ back) := by
  have found := Html.found_text (searched_alone current_listed) (current_found page before after item others)
  have quoted : "\" aria-current=\"page\"" = "\" " ++ currentText := rfl
  have named : currentText.toList = currentMark := String.toList_ofList
  refine ⟨Html.render (linkFront page before),
    Html.render (.text item.title :: .markup "</a>\n" :: linkBack page after), Text.once_of_behind _ _ _ _ ?_ ?_⟩
  · rw [current_cut page before after item split active, Html.render_append]
    simp only [activeParts, List.cons_append, List.nil_append, Html.render_cons, Part.render, quoted,
      String.append_assoc]
  · rw [named, current_cut page before after item split active, found, List.map_singleton]
    simp only [activeParts, List.drop_succ_cons, List.drop_zero, List.cons_append, List.nil_append, Html.render_cons,
      Part.render]

end Page

namespace Selection

theorem nav_listed (selection : Selection) :
    selection.nav.map (fun item => (item.id, item.title, item.href)) = selection.registry.entries.map fun entry =>
      (entry.id, entry.title, selection.deployment.resolve entry.id.pagePath) := by
  conv => rhs; rw [← List.map_get_finRange selection.registry.entries]
  rw [nav, NavItem.all, List.map_map, List.map_map]
  rfl

theorem nav_split (selection : Selection) : ∃ before item after, selection.nav = before ++ item :: after ∧
    item.active = true ∧ item.id = selection.activeId ∧ ∀ other ∈ before ++ after, other.active = false := by
  obtain ⟨before, after, split⟩ := List.append_of_mem (List.mem_finRange selection.active)
  have distinct := List.nodup_finRange selection.registry.entries.length
  rw [split, List.nodup_middle, List.nodup_cons] at distinct
  rw [nav, NavItem.all, split, List.map_append, List.map_cons]
  refine ⟨_, _, _, rfl, beq_self_eq_true _, rfl, ?_⟩
  rw [← List.map_append]
  intro other member
  obtain ⟨position, inside, rfl⟩ := List.mem_map.mp member
  rw [beq_eq_false_iff_ne]
  rintro rfl
  exact distinct.1 inside

theorem one_current (selection : Selection) (notice : Option String) :
    selection.nav.map (fun item => (item.id, item.title, item.href)) = (selection.registry.entries.map fun entry =>
      (entry.id, entry.title, selection.deployment.resolve entry.id.pagePath)) ∧
    ∃ before item after, selection.nav = before ++ item :: after ∧ item.active = true ∧
      item.id = selection.activeId ∧ (∀ other ∈ before ++ after, other.active = false) ∧
      ∃ front href back,
        Text.Once "aria-current=\"page\"" (selection.page notice).1.render
          (front ++ "<a class=\"sample active\" href=\"" ++ href ++ "\" ") (">" ++ back) ∧
        (∀ c ∈ href.toList, Html.isMark c = false) ∧ Html.unescape href = item.href := by
  obtain ⟨before, item, after, split, active, named, others⟩ := nav_split selection
  obtain ⟨front, back, once⟩ := Page.current_once (selection.page notice).1 before after item split active others
  exact ⟨nav_listed selection, before, item, after, split, active, named, others, front, Html.escape item.href, back, once,
    Html.escape_members item.href, Html.unescape_escape item.href⟩

end Selection

end Showcase
