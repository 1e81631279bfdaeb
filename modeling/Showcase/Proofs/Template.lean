import Showcase.Proofs.Markup
import Showcase.Proofs.Text

set_option autoImplicit false

namespace Showcase

namespace Html

theorem escape_injective : Function.Injective escape := by
  intro a b same
  rw [← unescape_escape a, same, unescape_escape]

theorem escape_members (raw : String) (c : Char) (member : c ∈ (escape raw).toList) : isMark c = false := by
  rw [escape, String.toList_ofList, escapeChars, List.mem_flatMap] at member
  obtain ⟨d, _, inside⟩ := member
  by_cases mark : isMark c = true
  · have kept := List.mem_filter.mpr ⟨inside, mark⟩
    rw [escape_char_unmarked] at kept
    cases kept
  · exact Bool.eq_false_iff.mpr mark

def Marked (content : String) : Prop := ∃ c ∈ content.toList, isMark c = true

theorem marked_literal (chars : List Char) (found : chars.any isMark = true) : Marked (String.ofList chars) := by
  rw [Marked, String.toList_ofList]
  exact List.any_eq_true.mp found

theorem marked_front (a b : String) (marked : Marked a) : Marked (a ++ b) := by
  obtain ⟨c, member, mark⟩ := marked
  exact ⟨c, by simp [member], mark⟩

theorem marked_back (a b : String) (marked : Marked b) : Marked (a ++ b) := by
  obtain ⟨c, member, mark⟩ := marked
  exact ⟨c, by simp [member], mark⟩

theorem first_mark (content : String) (marked : Marked content) :
    ∃ lead mark tail, content.toList = lead ++ mark :: tail ∧ isMark mark = true ∧ ∀ c ∈ lead, isMark c = false := by
  cases found : content.toList.find? isMark with
  | none =>
      obtain ⟨c, member, mark⟩ := marked
      exact absurd mark (List.find?_eq_none.mp found c member)
  | some mark =>
      obtain ⟨holds, lead, tail, split, before⟩ := List.find?_eq_some_iff_append.mp found
      exact ⟨lead, mark, tail, split, holds, by simpa using before⟩

theorem field_ends (a b content : String) (marked : Marked content) (rest tail : String)
    (same : escape a ++ (content ++ rest) = escape b ++ (content ++ tail)) : a = b ∧ rest = tail := by
  -- What the markup has before its first mark could be text of the field, but it is the same on both sides.
  obtain ⟨lead, mark, behind, split, holds, before⟩ := first_mark content marked
  have plain : ∀ (raw : String), ∀ c ∈ (escape raw).toList ++ lead, isMark c = false := by
    intro raw c member
    rcases List.mem_append.mp member with inside | inside
    · exact escape_members raw c inside
    · exact before c inside
  have opens : ∀ (text : List Char) (c : Char), (mark :: text).head? = some c → isMark c = true := by
    intro text c first
    rw [← Option.some.inj first]
    exact holds
  have texts : ((escape a).toList ++ lead) ++ mark :: (behind ++ rest.toList) =
      ((escape b).toList ++ lead) ++ mark :: (behind ++ tail.toList) := by
    simpa [split] using congrArg String.toList same
  obtain ⟨fields, later⟩ := Text.cut_unique isMark _ _ _ _ ⟨plain a, plain b⟩ (opens _) (opens _) texts
  exact ⟨escape_injective (String.toList_inj.mp (List.append_cancel_right fields)),
    String.toList_inj.mp (List.append_cancel_left (List.cons.inj later).2)⟩

def Delimited : List Part → Prop
  | [] => True
  | .markup _ :: rest => Delimited rest
  | .text _ :: .markup content :: rest => Marked content ∧ Delimited rest
  | .text _ :: _ => False

theorem Part.markup_some (part : Part) (content : String) (shape : part.markup? = some content) :
    part = .markup content := by
  cases part with
  | markup other => rw [Option.some.inj shape]
  | text raw => cases shape

theorem Part.markup_none (part : Part) (shape : part.markup? = none) : ∃ raw, part = .text raw := by
  cases part with
  | markup content => cases shape
  | text raw => exact ⟨raw, rfl⟩

theorem render_unique (parts others : List Part) (closed : Delimited parts)
    (alike : parts.map Part.markup? = others.map Part.markup?) (rest tail : String)
    (same : render parts ++ rest = render others ++ tail) : parts = others ∧ rest = tail := by
  fun_induction Delimited parts generalizing others with
  | case1 =>
      rw [List.map_eq_nil_iff.mp alike.symm] at same ⊢
      exact ⟨rfl, by simpa [render] using same⟩
  | case2 content parts ih =>
      obtain ⟨other, others, rfl, shape, further⟩ := List.map_eq_cons_iff.mp alike.symm
      rw [Part.markup_some other content shape] at same ⊢
      simp only [render_cons, Part.render, String.append_assoc, String.append_right_inj] at same
      obtain ⟨again, later⟩ := ih others closed further.symm same
      exact ⟨by rw [again], later⟩
  | case3 raw content parts ih =>
      obtain ⟨field, closing, rfl, hole, behind⟩ := List.map_eq_cons_iff.mp alike.symm
      obtain ⟨other, others, rfl, shape, further⟩ := List.map_eq_cons_iff.mp behind
      obtain ⟨value, rfl⟩ := Part.markup_none field hole
      rw [Part.markup_some other content shape] at same ⊢
      simp only [render_cons, Part.render, String.append_assoc] at same
      obtain ⟨fields, left⟩ := field_ends raw value content closed.1 _ _ same
      obtain ⟨again, later⟩ := ih others closed.2 further.symm left
      exact ⟨by rw [fields, again], later⟩
  | case4 => cases closed

theorem markup_apart (a b : List Char) (short : a.isPrefixOf b = false) (long : b.isPrefixOf a = false)
    (rest tail : String) : String.ofList a ++ rest ≠ String.ofList b ++ tail := by
  intro same
  have texts : a ++ rest.toList = b ++ tail.toList := by simpa using congrArg String.toList same
  rw [Bool.eq_false_iff, Ne, List.isPrefixOf_iff_prefix] at short long
  rcases List.prefix_or_prefix_of_prefix (List.prefix_append a rest.toList)
    (texts ▸ List.prefix_append b tail.toList) with before | before
  · exact short before
  · exact long before

end Html

namespace NavItem

def shown (item : NavItem) : String × String × Bool := (item.href, item.title, item.active)

end NavItem

namespace Page

open Html (Part render_append render_unique markup_apart marked_literal marked_front marked_back)

def navOpening (active : Bool) : String :=
  if active then "<a class=\"sample active\" href=\"" else "<a class=\"sample\" href=\""

theorem nav_opens (item : NavItem) : ∃ rest, Html.render (navParts item) = navOpening item.active ++ rest := by
  refine ⟨Html.render (navParts item).tail, ?_⟩
  have first : navParts item = .markup (navOpening item.active) :: (navParts item).tail := by
    cases flag : item.active <;> simp only [navParts, flag] <;> rfl
  rw [first, Html.render_cons, List.tail_cons]
  rfl

theorem nav_apart (item other : NavItem) (different : item.active ≠ other.active) (rest tail : String) :
    Html.render (navParts item) ++ rest ≠ Html.render (navParts other) ++ tail := by
  obtain ⟨behind, opened⟩ := nav_opens item
  obtain ⟨further, others⟩ := nav_opens other
  rw [opened, others, String.append_assoc, String.append_assoc, Bool.eq_not_of_ne different]
  cases other.active with
  | true => exact markup_apart _ _ rfl rfl _ _
  | false => exact markup_apart _ _ rfl rfl _ _

theorem nav_unique (item other : NavItem) (rest tail : String)
    (same : Html.render (navParts item) ++ rest = Html.render (navParts other) ++ tail) :
    item.shown = other.shown ∧ rest = tail := by
  by_cases alike : item.active = other.active
  · have closed : Html.Delimited (navParts item) :=
      ⟨marked_front _ _ (marked_front _ _ (marked_literal _ rfl)), marked_literal _ rfl, trivial⟩
    have shape : (navParts item).map Part.markup? = (navParts other).map Part.markup? := by
      rw [navParts, navParts, alike]
      rfl
    obtain ⟨parts, later⟩ := render_unique _ _ closed shape rest tail same
    simp only [navParts, List.cons.injEq, Part.text.injEq] at parts
    obtain ⟨_, href, _, title, _⟩ := parts
    exact ⟨by rw [NavItem.shown, NavItem.shown, href, title, alike], later⟩
  · exact absurd same (nav_apart item other alike rest tail)

def navClosing : String := "</nav>\n</div>\n</aside>\n<main>\n"

theorem closing_apart (item : NavItem) (rest tail : String) :
    navClosing ++ rest ≠ Html.render (navParts item) ++ tail := by
  obtain ⟨behind, opened⟩ := nav_opens item
  rw [opened, String.append_assoc]
  cases item.active with
  | true => exact markup_apart _ _ rfl rfl _ _
  | false => exact markup_apart _ _ rfl rfl _ _

theorem links_unique (items others : List NavItem) (rest tail : String)
    (same : Html.render (items.flatMap navParts) ++ (navClosing ++ rest) =
      Html.render (others.flatMap navParts) ++ (navClosing ++ tail)) :
    items.map NavItem.shown = others.map NavItem.shown ∧ rest = tail := by
  have none : Html.render [] = "" := rfl
  induction items generalizing others with
  | nil =>
      cases others with
      | nil => exact ⟨rfl, by simpa [none] using same⟩
      | cons other others =>
          rw [List.flatMap_nil, none, String.empty_append, List.flatMap_cons, render_append,
            String.append_assoc] at same
          exact absurd same (closing_apart other _ _)
  | cons item items ih =>
      rw [List.flatMap_cons, render_append, String.append_assoc] at same
      cases others with
      | nil =>
          rw [List.flatMap_nil, none, String.empty_append] at same
          exact absurd same.symm (closing_apart item _ _)
      | cons other others =>
          rw [List.flatMap_cons, render_append, String.append_assoc] at same
          obtain ⟨first, behind⟩ := nav_unique item other _ _ same
          obtain ⟨further, later⟩ := ih others behind
          exact ⟨by rw [List.map_cons, List.map_cons, first, further], later⟩

theorem nav_shown (item other : NavItem) (alike : item.shown = other.shown) : navParts item = navParts other := by
  simp only [NavItem.shown, Prod.mk.injEq] at alike
  obtain ⟨href, title, active⟩ := alike
  rw [navParts, navParts, href, title, active]

theorem sample_unique (view other : View) (rest tail : String)
    (same : Html.render (samplePartsOf view) ++ rest = Html.render (samplePartsOf other) ++ tail) :
    view = other ∧ rest = tail := by
  have closed : Html.Delimited (samplePartsOf view) :=
    ⟨marked_front _ _ (marked_literal _ rfl), marked_literal _ rfl, marked_literal _ rfl, marked_literal _ rfl,
      marked_literal _ rfl, marked_literal _ rfl, trivial⟩
  obtain ⟨parts, later⟩ := render_unique (samplePartsOf view) (samplePartsOf other) closed rfl rest tail same
  simp only [samplePartsOf, List.cons.injEq, Part.text.injEq] at parts
  obtain ⟨_, title, _, href, _, label, _, source, _, output, _⟩ := parts
  cases view
  cases other
  cases title
  cases href
  cases label
  cases source
  cases output
  exact ⟨rfl, later⟩

theorem notice_apart (message : String) (view : View) (rest tail : String) :
    Html.render (noticeParts (some message)) ++ rest ≠ Html.render (samplePartsOf view) ++ tail := by
  rw [noticeParts, samplePartsOf, Html.render_cons, Html.render_cons (.markup _), String.append_assoc,
    String.append_assoc]
  exact markup_apart _ _ rfl rfl _ _

theorem notice_unique (notice otherNotice : Option String) (view other : View) (rest tail : String)
    (same : Html.render (noticeParts notice) ++ (Html.render (samplePartsOf view) ++ rest) =
      Html.render (noticeParts otherNotice) ++ (Html.render (samplePartsOf other) ++ tail)) :
    notice = otherNotice ∧ view = other ∧ rest = tail := by
  have none : ∀ text, Html.render (noticeParts none) ++ text = text := fun text => String.empty_append
  cases notice with
  | none =>
      rw [none] at same
      cases otherNotice with
      | none =>
          rw [none] at same
          exact ⟨rfl, sample_unique view other rest tail same⟩
      | some message => exact absurd same.symm (notice_apart message view _ _)
  | some message =>
      cases otherNotice with
      | none =>
          rw [none] at same
          exact absurd same (notice_apart message other _ _)
      | some text =>
          have closed : Html.Delimited (noticeParts (some message)) := ⟨marked_literal _ rfl, trivial⟩
          obtain ⟨parts, behind⟩ := render_unique _ (noticeParts (some text)) closed rfl _ _ same
          simp only [noticeParts, List.cons.injEq, Part.text.injEq] at parts
          exact ⟨by rw [parts.2.1], sample_unique view other rest tail behind⟩

theorem footer_unique (page other : Page) (same : Html.render page.footerParts = Html.render other.footerParts) :
    page.extension = other.extension ∧ page.folder = other.folder := by
  have closed : Html.Delimited page.footerParts := ⟨marked_literal _ rfl, marked_literal _ rfl, trivial⟩
  obtain ⟨parts, _⟩ := render_unique page.footerParts other.footerParts closed rfl "" "" (by rw [same])
  simp only [footerParts, List.cons.injEq, Part.text.injEq] at parts
  exact ⟨parts.2.1, parts.2.2.2.1⟩

theorem render_parts (page : Page) :
    page.render = Html.render page.headParts ++ (Html.render (page.nav.flatMap navParts) ++ (navClosing ++
      (Html.render (noticeParts page.notice) ++ (Html.render (samplePartsOf page.view) ++
        Html.render page.footerParts)))) := by
  have closing : Html.render [.markup "</nav>\n</div>\n</aside>\n<main>\n"] = navClosing := rfl
  simp only [render, parts, render_append, closing, String.append_assoc]

/-- Two pages that show the same. The ids behind their links are not shown. -/
structure Alike (page other : Page) : Prop where
  view : page.view = other.view
  nav : page.nav.map NavItem.shown = other.nav.map NavItem.shown
  notice : page.notice = other.notice
  extension : page.extension = other.extension
  folder : page.folder = other.folder

theorem render_alike (page other : Page) (alike : Alike page other) : page.render = other.render := by
  have head : page.headParts = other.headParts := by rw [headParts, headParts, alike.view]
  have footer : page.footerParts = other.footerParts := by
    rw [footerParts, footerParts, alike.extension, alike.folder]
  rw [render_parts, render_parts, head, footer, alike.view, alike.notice,
    flat_map_alike NavItem.shown navParts nav_shown page.nav other.nav alike.nav]

theorem alike_of_render (page other : Page) (same : page.render = other.render) : Alike page other := by
  have closed : Html.Delimited page.headParts := ⟨marked_back _ _ (marked_literal _ rfl), trivial⟩
  rw [render_parts, render_parts] at same
  obtain ⟨_, links⟩ := render_unique page.headParts other.headParts closed rfl _ _ same
  obtain ⟨nav, notices⟩ := links_unique page.nav other.nav _ _ links
  obtain ⟨notice, view, footers⟩ := notice_unique page.notice other.notice page.view other.view _ _ notices
  obtain ⟨extension, folder⟩ := footer_unique page other footers
  exact ⟨view, nav, notice, extension, folder⟩

end Page

namespace Selection

theorem page_text_iff (selection other : Selection) (notice otherNotice : Option String) :
    (selection.page notice).1.render = (other.page otherNotice).1.render ↔
      selection.view.1 = other.view.1 ∧ selection.nav.map NavItem.shown = other.nav.map NavItem.shown ∧
      notice = otherNotice ∧ selection.registry.rule.extension = other.registry.rule.extension ∧
      selection.registry.rule.folder = other.registry.rule.folder := by
  constructor
  · intro same
    obtain ⟨view, nav, notices, extension, folder⟩ := Page.alike_of_render _ _ same
    exact ⟨view, nav, notices, extension, folder⟩
  · rintro ⟨view, nav, notices, extension, folder⟩
    exact Page.render_alike _ _ ⟨view, nav, notices, extension, folder⟩

end Selection

end Showcase
