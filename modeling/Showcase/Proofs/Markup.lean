import Showcase.Page.Basic
import Showcase.Proofs.Registry

set_option autoImplicit false

namespace Showcase

namespace Html

def isMark (c : Char) : Bool := c == '<' || c == '>' || c == '"' || c == '\''

def skeleton (text : String) : String := String.ofList (text.toList.filter isMark)

theorem skeleton_append (a b : String) : skeleton (a ++ b) = skeleton a ++ skeleton b := by
  simp [skeleton]

theorem escape_chars_cons (c : Char) (raw : List Char) : escapeChars (c :: raw) = escapeChar c ++ escapeChars raw :=
  List.flatMap_cons

theorem escape_char_unmarked (c : Char) : (escapeChar c).filter isMark = [] := by
  unfold escapeChar
  split
  · decide
  · decide
  · decide
  · decide
  · decide
  · simp_all [isMark]

theorem skeleton_escape (raw : String) : skeleton (escape raw) = "" := by
  have unmarked : (escapeChars raw.toList).filter isMark = [] := by
    simp [escapeChars, List.filter_flatMap, escape_char_unmarked]
  rw [skeleton, escape, String.toList_ofList, unmarked]

/-- A text as a reader sees it. Every escape stands for one character, and what it stands for is not read again. -/
def unescapeChars : List Char → List Char
  | '&' :: 'a' :: 'm' :: 'p' :: ';' :: rest => '&' :: unescapeChars rest
  | '&' :: 'l' :: 't' :: ';' :: rest => '<' :: unescapeChars rest
  | '&' :: 'g' :: 't' :: ';' :: rest => '>' :: unescapeChars rest
  | '&' :: 'q' :: 'u' :: 'o' :: 't' :: ';' :: rest => '"' :: unescapeChars rest
  | '&' :: '#' :: '3' :: '9' :: ';' :: rest => '\'' :: unescapeChars rest
  | c :: rest => c :: unescapeChars rest
  | [] => []

def unescape (text : String) : String := String.ofList (unescapeChars text.toList)

theorem unescape_other (c : Char) (rest : List Char) (other : c ≠ '&') :
    unescapeChars (c :: rest) = c :: unescapeChars rest := by
  rw [unescapeChars.eq_def]
  split <;> simp_all

theorem unescape_escape_char (c : Char) (rest : List Char) :
    unescapeChars (escapeChar c ++ rest) = c :: unescapeChars rest := by
  unfold escapeChar
  split
  · rfl
  · rfl
  · rfl
  · rfl
  · rfl
  · rename_i other _ _ _ _
    exact unescape_other c rest other

theorem unescape_chars_append (raw rest : List Char) :
    unescapeChars (escapeChars raw ++ rest) = raw ++ unescapeChars rest := by
  induction raw with
  | nil => rfl
  | cons c raw ih => rw [escape_chars_cons, List.append_assoc, unescape_escape_char, ih, List.cons_append]

theorem unescape_append (raw rest : String) : unescape (escape raw ++ rest) = raw ++ unescape rest := by
  rw [unescape, escape, String.toList_append, String.toList_ofList, unescape_chars_append, String.ofList_append,
    String.ofList_toList, unescape]

theorem unescape_escape (raw : String) : unescape (escape raw) = raw := by
  have whole := unescape_append raw ""
  rwa [String.append_empty, show unescape "" = "" from rfl, String.append_empty] at whole

theorem render_append (a b : List Part) : render (a ++ b) = render a ++ render b := by
  simp [render, String.join_append]

theorem render_cons (part : Part) (rest : List Part) : render (part :: rest) = part.render ++ render rest := by
  simp [render, String.join_cons]

def Part.markup? : Part → Option String
  | .markup content => some content
  | .text _ => none

def markups (parts : List Part) : List String := parts.filterMap Part.markup?

theorem markups_append (a b : List Part) : markups (a ++ b) = markups a ++ markups b := List.filterMap_append

theorem skeleton_render (parts : List Part) : skeleton (render parts) = skeleton (String.join (markups parts)) := by
  induction parts with
  | nil => rfl
  | cons part rest ih =>
      rw [render_cons, skeleton_append, ih]
      cases part with
      | markup content =>
          have joined : String.join (markups (.markup content :: rest)) = content ++ String.join (markups rest) :=
            String.join_cons
          rw [Part.render, joined, skeleton_append]
      | text content =>
          rw [Part.render, skeleton_escape, String.empty_append]
          rfl

end Html

namespace Page

open Html (markups markups_append)

theorem nav_markups (item other : NavItem) (alike : item.active = other.active) :
    markups (navParts item) = markups (navParts other) := by
  rw [navParts, navParts, alike]
  rfl

theorem flat_map_alike {α β γ : Type} (seen : α → β) (f : α → List γ) (blind : ∀ a b, seen a = seen b → f a = f b)
    (items others : List α) (alike : items.map seen = others.map seen) : items.flatMap f = others.flatMap f := by
  induction items generalizing others with
  | nil => rw [List.map_eq_nil_iff.mp alike.symm]
  | cons item items ih =>
      obtain ⟨other, further, rfl, first, later⟩ := List.map_eq_cons_iff.mp alike.symm
      rw [List.flatMap_cons, List.flatMap_cons, blind item other first.symm, ih further later.symm]

theorem links_markups (items others : List NavItem)
    (alike : items.map NavItem.active = others.map NavItem.active) :
    markups (items.flatMap navParts) = markups (others.flatMap navParts) := by
  have split : ∀ links : List NavItem,
      markups (links.flatMap navParts) = links.flatMap fun item => markups (navParts item) :=
    fun links => List.filterMap_flatMap
  rw [split, split]
  exact flat_map_alike NavItem.active _ nav_markups items others alike

theorem notice_markups (notice other : Option String) (alike : notice.isSome = other.isSome) :
    markups (noticeParts notice) = markups (noticeParts other) := by
  cases notice with
  | none =>
      cases other with
      | none => rfl
      | some text => cases alike
  | some message =>
      cases other with
      | none => cases alike
      | some text => rfl

theorem page_markups (page other : Page) (links : page.nav.map NavItem.active = other.nav.map NavItem.active)
    (notices : page.notice.isSome = other.notice.isSome) : markups page.parts = markups other.parts := by
  have head : markups page.headParts = markups other.headParts := rfl
  have sample : markups (samplePartsOf page.view) = markups (samplePartsOf other.view) := rfl
  have footer : markups page.footerParts = markups other.footerParts := rfl
  simp only [parts, markups_append, head, sample, footer, links_markups _ _ links, notice_markups _ _ notices]

end Page

namespace Selection

theorem nav_flags (selection : Selection) :
    selection.nav.map NavItem.active =
      (List.range selection.registry.entries.length).map fun position => position == selection.active.val := by
  rw [nav, NavItem.all, List.map_map, ← List.map_coe_finRange_eq_range, List.map_map]
  apply List.map_congr_left
  intro position _
  simp [Fin.ext_iff]

theorem page_skeleton (selection other : Selection)
    (sameSize : selection.registry.entries.length = other.registry.entries.length)
    (samePosition : selection.active.val = other.active.val) (notice otherNotice : Option String)
    (sameNotice : notice.isSome = otherNotice.isSome) :
    Html.skeleton (selection.page notice).1.render = Html.skeleton (other.page otherNotice).1.render := by
  have links : selection.nav.map NavItem.active = other.nav.map NavItem.active := by
    rw [nav_flags, nav_flags, samePosition, sameSize]
  have markups := Page.page_markups (selection.page notice).1 (other.page otherNotice).1 links sameNotice
  rw [Page.render, Page.render, Html.skeleton_render, Html.skeleton_render, markups]

def quietEntries : List SampleEntry :=
  [⟨⟨"one", by decide⟩, "One", "begin end.", "1"⟩, ⟨⟨"two", by decide⟩, "Two", "", ""⟩]

def hostileEntries : List SampleEntry :=
  [⟨⟨"a", by decide⟩, "</title><script>alert('1')</script>", "</pre><b>", "\"&'"⟩,
   ⟨⟨"b", by decide⟩, "\"><img src='x'>", "<!--", "&lt;"⟩]

theorem page_skeleton_hostile : ∃ quiet hostile,
    Registry.ofEntries quietEntries {} = .ok quiet ∧
    Registry.ofEntries hostileEntries ⟨"/x.y/", "txt"⟩ = .ok hostile ∧
    ∃ (first : 1 < quiet.entries.length) (second : 1 < hostile.entries.length),
      quiet.entries.length = hostile.entries.length ∧
      Html.skeleton ((⟨quiet, Deployment.root, ⟨1, first⟩, none, 0⟩ : Selection).page (some "")).1.render =
        Html.skeleton
          ((⟨hostile, ⟨"/site/"⟩, ⟨1, second⟩, none, 0⟩ : Selection).page (some "unknown sample '<x>'")).1.render := by
  obtain ⟨quiet, quietBuilt⟩ := Registry.of_entries_ok quietEntries {} (by decide) (by decide) (by decide)
  obtain ⟨hostile, hostileBuilt⟩ :=
    Registry.of_entries_ok hostileEntries ⟨"/x.y/", "txt"⟩ (by decide) (by decide) (by decide)
  have quietSize : quiet.entries.length = 2 := by rw [(Registry.of_entries_rule quietBuilt).1]; rfl
  have hostileSize : hostile.entries.length = 2 := by rw [(Registry.of_entries_rule hostileBuilt).1]; rfl
  have sameSize := quietSize.trans hostileSize.symm
  have first : 1 < quiet.entries.length := by omega
  have second : 1 < hostile.entries.length := by omega
  refine ⟨quiet, hostile, quietBuilt, hostileBuilt, first, second, sameSize, ?_⟩
  exact page_skeleton ⟨quiet, Deployment.root, ⟨1, first⟩, none, 0⟩ ⟨hostile, ⟨"/site/"⟩, ⟨1, second⟩, none, 0⟩ sameSize rfl
    (some "") (some "unknown sample '<x>'") rfl

end Selection

end Showcase
