import Showcase.Proofs.Template
/-!
Where a part stands in a text. A page is gone through from left to right: markup is compared with the part, and an
escaped text cannot hold the start of a part whose first mark is not the one behind the text.
-/
set_option autoImplicit false

namespace Showcase

namespace Text

/-- What stands behind each occurrence of a part, from left to right. Occurrences may overlap. -/
def behind (part : List Char) : List Char → List (List Char)
  | [] => if part.isPrefixOf [] then [[]] else []
  | c :: rest =>
    if part.isPrefixOf (c :: rest) then (c :: rest).drop part.length :: behind part rest else behind part rest

theorem behind_iff (part text rest : List Char) :
    rest ∈ behind part text ↔ ∃ front, text = front ++ (part ++ rest) := by
  induction text with
  | nil =>
      cases part with
      | nil => simp [behind]
      | cons c others => simp [behind]
  | cons c others ih =>
      have later : (∃ front, c :: others = front ++ (part ++ rest)) ↔
          c :: others = part ++ rest ∨ ∃ front, others = front ++ (part ++ rest) := by
        constructor
        · rintro ⟨front, split⟩
          cases front with
          | nil => exact .inl split
          | cons first front => exact .inr ⟨front, (List.cons.inj split).2⟩
        · rintro (split | ⟨front, split⟩)
          · exact ⟨[], split⟩
          · exact ⟨c :: front, by rw [split]; rfl⟩
      rw [later, ← ih, behind]
      by_cases begins : part.isPrefixOf (c :: others) = true
      · obtain ⟨tail, split⟩ := List.isPrefixOf_iff_prefix.mp begins
        rw [if_pos begins, List.mem_cons, ← split, List.drop_left, List.append_right_inj, eq_comm]
      · rw [if_neg begins, iff_or_self]
        intro split
        exact absurd (List.isPrefixOf_iff_prefix.mpr ⟨rest, split.symm⟩) begins

def apart (a b : List Char) : Bool := !a.isPrefixOf b && !b.isPrefixOf a

theorem apart_append (a b : List Char) (different : apart a b = true) (rest tail : List Char) :
    a ++ rest ≠ b ++ tail := by
  rw [apart, Bool.and_eq_true, Bool.not_eq_true', Bool.not_eq_true'] at different
  intro same
  apply Html.markup_apart a b different.1 different.2 (String.ofList rest) (String.ofList tail)
  rw [← String.ofList_append, ← String.ofList_append, same]

theorem apart_nonempty (a b : List Char) (different : apart a b = true) : a ≠ [] ∧ b ≠ [] := by
  constructor
  · rintro rfl
    exact apart_append [] b different b [] (by simp)
  · rintro rfl
    exact apart_append a [] different [] a (by simp)

/-- No occurrence of the part begins in the content, whatever follows it. -/
def Passes (part : List Char) (content : String) : Prop :=
  ∀ rest, behind part (content.toList ++ rest) = behind part rest

theorem passes_empty (part : List Char) : Passes part "" := fun _ => rfl

section Passes

variable {part : List Char} {a b : String}

theorem passes_append (first : Passes part a) (second : Passes part b) : Passes part (a ++ b) := by
  intro rest
  rw [String.toList_append, List.append_assoc, first, second]

theorem passes_join (contents : List String) (each : ∀ content ∈ contents, Passes part content) :
    Passes part (String.join contents) := by
  induction contents with
  | nil => exact passes_empty part
  | cons content contents ih =>
      rw [String.join_cons]
      exact passes_append (each content List.mem_cons_self)
        (ih fun other member => each other (List.mem_cons_of_mem content member))

theorem passes_intercalate (contents : List String) (separator : Passes part a)
    (each : ∀ content ∈ contents, Passes part content) : Passes part (String.intercalate a contents) := by
  induction contents with
  | nil => exact passes_empty part
  | cons content contents ih =>
      have first := each content List.mem_cons_self
      cases contents with
      | nil =>
          rw [String.intercalate_singleton]
          exact first
      | cons other contents =>
          rw [String.intercalate_cons_cons]
          exact passes_append (passes_append first separator)
            (ih fun later member => each later (List.mem_cons_of_mem content member))

end Passes

def clear (parts : List (List Char)) : List Char → Bool
  | [] => true
  | c :: rest => parts.all (fun part => apart part (c :: rest)) && clear parts rest

theorem passes_literal {parts : List (List Char)} {part chars : List Char} (listed : part ∈ parts)
    (checked : clear parts chars = true) : Passes part (String.ofList chars) := by
  intro rest
  rw [String.toList_ofList]
  induction chars with
  | nil => rfl
  | cons c chars ih =>
      rw [clear, Bool.and_eq_true] at checked
      have different := List.all_eq_true.mp checked.1 part listed
      have absent : ¬ part.isPrefixOf (c :: (chars ++ rest)) = true := by
        intro begins
        obtain ⟨tail, split⟩ := List.isPrefixOf_iff_prefix.mp begins
        exact apart_append part (c :: chars) different tail rest split
      rw [List.cons_append, behind, if_neg absent, ih checked.2]

structure Alone (part : List Char) : Prop where
  nonempty : part ≠ []
  tail : Passes part (String.ofList part.tail)

theorem behind_nil {part : List Char} (alone : Alone part) : behind part [] = [] := by
  cases part with
  | nil => exact absurd rfl alone.nonempty
  | cons c others => rfl

theorem behind_hit {part : List Char} (alone : Alone part) (rest : List Char) :
    behind part (part ++ rest) = rest :: behind part rest := by
  have further := alone.tail rest
  rw [String.toList_ofList] at further
  cases part with
  | nil => exact absurd rfl alone.nonempty
  | cons c others =>
      have begins : (c :: others).isPrefixOf (c :: (others ++ rest)) = true :=
        List.isPrefixOf_iff_prefix.mpr ⟨rest, rfl⟩
      rw [List.cons_append, behind, if_pos begins, ← List.cons_append, List.drop_left]
      exact congrArg (rest :: ·) further

structure Once (part text front back : String) : Prop where
  here : text = front ++ part ++ back
  alone : ∀ before after, text = before ++ part ++ after → before = front ∧ after = back

theorem once_of_behind (part text front back : String) (split : text = front ++ part ++ back)
    (found : behind part.toList text.toList = [back.toList]) : Once part text front back := by
  refine ⟨split, ?_⟩
  intro before after other
  have member : after.toList ∈ behind part.toList text.toList := by
    rw [behind_iff]
    exact ⟨before.toList, by rw [other]; simp⟩
  rw [found, List.mem_singleton, String.toList_inj] at member
  subst member
  rw [split, String.append_left_inj, String.append_left_inj] at other
  exact ⟨other.symm, rfl⟩

end Text

namespace Html

open Text (Passes behind apart)

def fromMark (text : List Char) : List Char := text.dropWhile fun c => !isMark c

theorem from_mark_append (text rest : List Char) (marked : fromMark text ≠ []) :
    fromMark (text ++ rest) = fromMark text ++ rest := by
  rw [fromMark, List.dropWhile_append, if_neg (by simpa [fromMark] using marked), fromMark]

theorem from_mark_plain (front rest : List Char) (plain : ∀ c ∈ front, isMark c = false) :
    fromMark (front ++ rest) = fromMark rest :=
  List.dropWhile_append_of_pos fun c member => by rw [plain c member]; rfl

/-- The first mark of the part is not followed like the first mark of the markup. -/
def Sharp (part : List Char) (content : String) : Prop := apart (fromMark part) (fromMark content.toList) = true

theorem sharp_literal {parts : List (List Char)} {part chars : List Char} (listed : part ∈ parts)
    (checked : parts.all (fun part => apart (fromMark part) (fromMark chars)) = true) :
    Sharp part (String.ofList chars) := by
  rw [Sharp, String.toList_ofList]
  exact List.all_eq_true.mp checked part listed

theorem sharp_append {part : List Char} {a b : String} (sharp : Sharp part a) : Sharp part (a ++ b) := by
  have marked := (Text.apart_nonempty _ _ sharp).2
  rw [Sharp, String.toList_append, from_mark_append _ _ marked, apart, Bool.and_eq_true, Bool.not_eq_true',
    Bool.not_eq_true', Bool.eq_false_iff, Bool.eq_false_iff, Ne, Ne, List.isPrefixOf_iff_prefix,
    List.isPrefixOf_iff_prefix]
  constructor
  · rintro ⟨tail, split⟩
    exact Text.apart_append _ _ sharp tail b.toList split
  · rintro ⟨tail, split⟩
    exact Text.apart_append _ _ sharp [] (b.toList ++ tail) (by simp [← split])

theorem behind_plain {part : List Char} {content : String} (front : List Char)
    (plain : ∀ c ∈ front, isMark c = false) (sharp : Sharp part content) (rest : List Char) :
    behind part (front ++ (content.toList ++ rest)) = behind part (content.toList ++ rest) := by
  -- An occurrence that begins in a text without marks would have its first mark where the markup has its own.
  induction front with
  | nil => rfl
  | cons c front ih =>
      have absent : ¬ part.isPrefixOf (c :: (front ++ (content.toList ++ rest))) = true := by
        intro begins
        obtain ⟨tail, split⟩ := List.isPrefixOf_iff_prefix.mp begins
        obtain ⟨partMarked, marked⟩ := Text.apart_nonempty _ _ sharp
        have marks := congrArg fromMark split
        rw [from_mark_append _ _ partMarked, ← List.cons_append, from_mark_plain _ _ plain,
          from_mark_append _ _ marked] at marks
        exact Text.apart_append _ _ sharp tail rest marks
      rw [List.cons_append, behind, if_neg absent]
      exact ih fun d member => plain d (List.mem_cons_of_mem c member)

def Ends (part : List Char) (content : String) : Prop :=
  ∃ front, content = front ++ String.ofList part ∧ Passes part front

theorem ends_literal {part chars : List Char}
    (checked : (chars.drop (chars.length - part.length) == part &&
      Text.clear [part] (chars.take (chars.length - part.length))) = true) : Ends part (String.ofList chars) := by
  rw [Bool.and_eq_true, beq_iff_eq] at checked
  refine ⟨_, ?_, Text.passes_literal (List.mem_singleton_self part) checked.2⟩
  rw [← String.ofList_append]
  conv => rhs; rhs; rhs; rw [← checked.1]
  rw [List.take_append_drop]

/-- What follows each occurrence of the part. None begins in a field, and one in the markup ends where the markup ends. -/
inductive Found (part : List Char) : List Part → List (List Part) → Prop where
  | nil : Found part [] []
  | markup {content : String} {parts : List Part} {found : List (List Part)} (passes : Passes part content)
      (later : Found part parts found) : Found part (.markup content :: parts) found
  | hit {content : String} {parts : List Part} {found : List (List Part)} (ends : Ends part content)
      (later : Found part parts found) : Found part (.markup content :: parts) (parts :: found)
  | field {raw content : String} {parts : List Part} {found : List (List Part)} (sharp : Sharp part content)
      (later : Found part (.markup content :: parts) found) : Found part (.text raw :: .markup content :: parts) found

section Found

variable {part : List Char} {parts others : List Part} {found further : List (List Part)}

theorem found_literal {marks : List (List Char)} {chars : List Char} (listed : part ∈ marks)
    (passed : Text.clear marks chars = true) (later : Found part parts found) :
    Found part (.markup (String.ofList chars) :: parts) found :=
  .markup (Text.passes_literal listed passed) later

theorem found_field {marks : List (List Char)} {chars : List Char} {raw : String} (listed : part ∈ marks)
    (sharp : marks.all (fun part => apart (fromMark part) (fromMark chars)) = true)
    (passed : Text.clear marks chars = true) (later : Found part parts found) :
    Found part (.text raw :: .markup (String.ofList chars) :: parts) found :=
  .field (sharp_literal listed sharp) (found_literal listed passed later)

theorem found_append (first : Found part parts found) (second : Found part others further) :
    Found part (parts ++ others) (found.map (· ++ others) ++ further) := by
  induction first with
  | nil => exact second
  | markup passes _ ih => exact .markup passes ih
  | hit ends _ ih => exact .hit ends ih
  | field sharp _ ih => exact .field sharp ih

theorem found_front (first : Found part parts []) (second : Found part others found) :
    Found part (parts ++ others) found :=
  found_append first second

theorem found_back (first : Found part parts found) (second : Found part others []) :
    Found part (parts ++ others) (found.map (· ++ others)) := by
  have both := found_append first second
  rwa [List.append_nil] at both

theorem markup_text (content : String) (parts : List Part) (rest : List Char) :
    (render (.markup content :: parts)).toList ++ rest = content.toList ++ ((render parts).toList ++ rest) := by
  simp [render_cons, Part.render]

theorem found_behind (alone : Text.Alone part) (located : Found part parts found) (rest : List Char) :
    behind part ((render parts).toList ++ rest) =
      found.map (fun later => (render later).toList ++ rest) ++ behind part rest := by
  induction located with
  | nil => rfl
  | markup passes _ ih => rw [markup_text, passes, ih]
  | hit ends _ ih =>
      obtain ⟨front, split, passes⟩ := ends
      rw [markup_text, split, String.toList_append, String.toList_ofList, List.append_assoc, passes,
        Text.behind_hit alone, ih]
      rfl
  | field sharp _ ih =>
      rw [← ih, render_cons, String.toList_append, List.append_assoc, markup_text]
      exact behind_plain _ (escape_members _) sharp _

theorem found_text (alone : Text.Alone part) (located : Found part parts found) :
    behind part (render parts).toList = found.map fun later => (render later).toList := by
  have whole := found_behind alone located []
  simpa [Text.behind_nil alone] using whole

end Found

end Html

namespace Page

open Text (Passes passes_append passes_literal)
open Html (Found found_literal found_field sharp_literal)

def currentMark : List Char :=
  ['a', 'r', 'i', 'a', '-', 'c', 'u', 'r', 'r', 'e', 'n', 't', '=', '"', 'p', 'a', 'g', 'e', '"']

def paneMark : List Char := ['<', 'p', 'r', 'e', '>']

def searched : List (List Char) := [currentMark, paneMark]

theorem current_listed : currentMark ∈ searched := List.mem_cons_self

theorem pane_listed : paneMark ∈ searched := List.mem_cons_of_mem currentMark List.mem_cons_self

theorem searched_alone {part : List Char} (listed : part ∈ searched) : Text.Alone part := by
  rcases List.mem_pair.mp listed with rfl | rfl
  · exact ⟨List.cons_ne_nil _ _, passes_literal current_listed rfl⟩
  · exact ⟨List.cons_ne_nil _ _, passes_literal pane_listed rfl⟩

theorem nav_parts_plain (item : NavItem) (plain : item.active = false) :
    navParts item = [.markup "<a class=\"sample\" href=\"", .text item.href, .markup "\">", .text item.title,
      .markup "</a>\n"] := by
  simp only [navParts, plain]
  rfl

theorem nav_parts_active (item : NavItem) (active : item.active = true) :
    navParts item = [.markup "<a class=\"sample active\" href=\"", .text item.href,
      .markup "\" aria-current=\"page\">", .text item.title, .markup "</a>\n"] := by
  simp only [navParts, active]
  rfl

section Searched

variable {part : List Char} (listed : part ∈ searched)

include listed

theorem style_passes : ∀ rule ∈ styleRules, Passes part rule.selector ∧
    ∀ declaration ∈ rule.declarations, Passes part declaration.1 ∧ Passes part declaration.2 := by
  simp only [styleRules, List.forall_mem_cons, List.not_mem_nil, IsEmpty.forall_iff, implies_true, and_true]
  repeat' apply And.intro
  all_goals exact passes_literal listed rfl

theorem rule_passes (rule : StyleRule) (member : rule ∈ styleRules) : Passes part rule.render := by
  obtain ⟨selector, words⟩ := style_passes listed rule member
  have opened : Passes part (rule.selector ++ " \x7b\n") := passes_append selector (passes_literal listed rfl)
  refine passes_append (passes_append opened (Text.passes_join _ ?_)) (passes_literal listed rfl)
  intro line written
  obtain ⟨declaration, held, rfl⟩ := List.mem_map.mp written
  obtain ⟨property, value⟩ := words declaration held
  have named : Passes part ("  " ++ declaration.1 ++ ": ") :=
    passes_append (passes_append (passes_literal listed rfl) property) (passes_literal listed rfl)
  exact passes_append (passes_append named value) (passes_literal listed rfl)

theorem stylesheet_passes : Passes part stylesheet := by
  apply Text.passes_intercalate
  · exact passes_literal listed rfl
  · intro content member
    obtain ⟨rule, held, rfl⟩ := List.mem_map.mp member
    exact rule_passes listed rule held

theorem pair_passes {a b : List Char} (first : Text.clear searched a = true) (second : Text.clear searched b = true) :
    Passes part (String.ofList a ++ String.ofList b) :=
  passes_append (passes_literal listed first) (passes_literal listed second)

theorem head_found (page : Page) : Found part page.headParts [] := by
  have titled : Html.Sharp part " · Pascal → LLVM IR samples</title>\n<style>\n" := sharp_literal listed rfl
  have heading : Passes part " · Pascal → LLVM IR samples</title>\n<style>\n" := passes_literal listed rfl
  exact .markup (pair_passes listed rfl rfl) (.field titled (.markup heading (.markup (stylesheet_passes listed)
    (.markup (pair_passes listed rfl rfl) .nil))))

theorem link_found (item : NavItem) (plain : item.active = false) : Found part (navParts item) [] := by
  rw [nav_parts_plain item plain]
  exact found_literal listed rfl (found_field listed rfl rfl (found_field listed rfl rfl .nil))

theorem notice_found (notice : Option String) : Found part (noticeParts notice) [] := by
  cases notice with
  | none => exact .nil
  | some message =>
      exact found_literal listed rfl (found_field listed rfl rfl .nil)

theorem closing_found (page : Page) :
    Found part (.markup "</nav>\n</div>\n</aside>\n<main>\n" :: noticeParts page.notice) [] :=
  found_literal listed rfl (notice_found listed page.notice)

theorem footer_found (page : Page) : Found part page.footerParts [] :=
  .markup (pair_passes listed rfl rfl) (found_field listed rfl rfl (found_field listed rfl rfl .nil))

end Searched

theorem links_found {part : List Char} (items : List NavItem)
    (each : ∀ item ∈ items, Found part (navParts item) []) : Found part (items.flatMap navParts) [] := by
  induction items with
  | nil => exact .nil
  | cons item items ih =>
      rw [List.flatMap_cons]
      exact Html.found_front (each item List.mem_cons_self)
        (ih fun other member => each other (List.mem_cons_of_mem item member))

end Page

end Showcase
