import Mathlib.Data.List.TakeWhile
import Showcase.Text.Percent
import Showcase.Text.Trim

set_option autoImplicit false

namespace Showcase.Text

theorem is_slash_iff (c : Char) : isSlash c = true ↔ c = '/' := by
  simp [isSlash]

theorem trim_end_append (p : Char → Bool) (text run : List Char) (dropped : ∀ c ∈ run, p c = true) :
    trimEnd p (text ++ run) = trimEnd p text := by
  have gone : run.reverse.dropWhile p = [] := List.dropWhile_eq_nil_iff.mpr (by simpa using dropped)
  simp [trimEnd, List.dropWhile_append, gone]

theorem reverse_drop_split {α : Type} (p : α → Bool) (items : List α) :
    ∃ run, items = (items.reverse.dropWhile p).reverse ++ run ∧ ∀ item ∈ run, p item = true := by
  refine ⟨(items.reverse.takeWhile p).reverse, ?_, ?_⟩
  · rw [← List.reverse_append, List.takeWhile_append_dropWhile, List.reverse_reverse]
  · intro item member
    exact List.all_eq_true.mp (List.all_takeWhile (l := items.reverse)) item (List.mem_reverse.mp member)

theorem trim_end_prefix (p : Char → Bool) (text : List Char) :
    ∃ run, text = trimEnd p text ++ run ∧ ∀ c ∈ run, p c = true :=
  reverse_drop_split p text

theorem trim_end_last (p : Char → Bool) (text : List Char) (c : Char) (last : (trimEnd p text).getLast? = some c) :
    p c = false := by
  rw [trimEnd, List.getLast?_reverse] at last
  have stopped := List.head?_dropWhile_not p text.reverse
  rw [last] at stopped
  simpa using stopped

theorem trim_end_idempotent (p : Char → Bool) (text : List Char) : trimEnd p (trimEnd p text) = trimEnd p text := by
  obtain ⟨run, split, dropped⟩ := trim_end_prefix p text
  have again := trim_end_append p (trimEnd p text) run dropped
  rw [← split] at again
  exact again.symm

theorem trim_start_head (p : Char → Bool) (text : List Char) (c : Char) (first : (trimStart p text).head? = some c) :
    p c = false := by
  have stopped := List.head?_dropWhile_not p text
  rw [show text.dropWhile p = trimStart p text from rfl, first] at stopped
  simpa using stopped

theorem trim_head (p : Char → Bool) (text : List Char) (c : Char) (first : (trim p text).head? = some c) :
    p c = false := by
  obtain ⟨run, split, _⟩ := trim_end_prefix p (trimStart p text)
  apply trim_start_head p text c
  rw [split, List.head?_append, show (trimEnd p (trimStart p text)).head? = some c from first]
  rfl

theorem cut_where (p : Char → Bool) (front rest : List Char) (plain : ∀ c ∈ front, p c = false)
    (opens : ∀ c, rest.head? = some c → p c = true) :
    (front ++ rest).takeWhile (fun c => !p c) = front ∧ (front ++ rest).dropWhile (fun c => !p c) = rest := by
  have passed : ∀ c ∈ front, (!p c) = true := fun c member => by rw [plain c member]; rfl
  have stop : rest.takeWhile (fun c => !p c) = [] ∧ rest.dropWhile (fun c => !p c) = rest := by
    cases rest with
    | nil => exact ⟨rfl, rfl⟩
    | cons c others => simp [opens c rfl]
  rw [List.takeWhile_append_of_pos passed, List.dropWhile_append_of_pos passed, stop.1, stop.2]
  exact ⟨List.append_nil front, rfl⟩

theorem skip_to_mark (p : Char → Bool) (front : List Char) (passed : ∀ c ∈ front, p c = true) (mark : Char)
    (stop : p mark = false) (rest : List Char) : (front ++ mark :: rest).dropWhile p = mark :: rest := by
  rw [List.dropWhile_append_of_pos passed, List.dropWhile_cons, stop]
  rfl

theorem cut_unique (p : Char → Bool) (front rest before after : List Char)
    (plain : (∀ c ∈ front, p c = false) ∧ ∀ c ∈ before, p c = false)
    (opens : ∀ c, rest.head? = some c → p c = true) (others : ∀ c, after.head? = some c → p c = true)
    (same : front ++ rest = before ++ after) : front = before ∧ rest = after := by
  obtain ⟨taken, dropped⟩ := cut_where p front rest plain.1 opens
  obtain ⟨cut, left⟩ := cut_where p before after plain.2 others
  rw [same] at taken dropped
  exact ⟨taken.symm.trans cut, dropped.symm.trans left⟩

theorem slashless (text : List Char) (plain : '/' ∉ text) : ∀ c ∈ text, isSlash c = false := by
  intro c member
  rw [isSlash, beq_eq_false_iff_ne]
  intro same
  exact plain (same ▸ member)

theorem segments_ne_nil (text : List Char) : segments text ≠ [] := by
  cases text with
  | nil => simp [segments]
  | cons c rest =>
      rw [segments]
      split
      · simp
      · split <;> simp

theorem segments_slash (before after : List Char) :
    segments (before ++ '/' :: after) = segments before ++ segments after := by
  induction before with
  | nil => simp [segments, isSlash]
  | cons c rest ih =>
      by_cases slash : isSlash c = true
      · simp [segments, slash, ih]
      · cases cut : segments rest with
        | nil => exact absurd cut (segments_ne_nil rest)
        | cons first others => simp [segments, slash, ih, cut]

theorem segments_plain (text : List Char) (plain : '/' ∉ text) : segments text = [text] := by
  induction text with
  | nil => rfl
  | cons c rest ih =>
      have apart : isSlash c = false := by
        simp [isSlash]
        intro same
        simp [same] at plain
      simp [segments, apart, ih (fun member => plain (List.mem_cons_of_mem c member))]

theorem segments_cover (text : List Char) (c : Char) (member : c ∈ text) (different : c ≠ '/') :
    ∃ segment ∈ segments text, c ∈ segment := by
  induction text with
  | nil => cases member
  | cons first rest ih =>
      by_cases slash : isSlash first = true
      · have inside : c ∈ rest := by
          rcases List.mem_cons.mp member with same | inside
          · exact absurd (same.trans ((is_slash_iff first).mp slash)) different
          · exact inside
        obtain ⟨segment, found, holds⟩ := ih inside
        exact ⟨segment, by simp [segments, slash, found], holds⟩
      · cases cut : segments rest with
        | nil => exact absurd cut (segments_ne_nil rest)
        | cons head others =>
            simp only [segments, if_neg slash, cut]
            rcases List.mem_cons.mp member with same | inside
            · exact ⟨first :: head, by simp, by simp [same]⟩
            · obtain ⟨segment, found, holds⟩ := ih inside
              rw [cut] at found
              rcases List.mem_cons.mp found with same | later
              · exact ⟨first :: head, by simp, by simp [← same, holds]⟩
              · exact ⟨segment, by simp [later], holds⟩

theorem segments_chars (text segment : List Char) (member : segment ∈ segments text) (c : Char) (inside : c ∈ segment) :
    c ∈ text ∧ c ≠ '/' := by
  induction text generalizing segment with
  | nil =>
      rw [segments, List.mem_singleton] at member
      rw [member] at inside
      cases inside
  | cons first rest ih =>
      have later : ∀ other ∈ segments rest, c ∈ other → c ∈ first :: rest ∧ c ≠ '/' := fun other found inside =>
        ⟨List.mem_cons_of_mem first (ih other found inside).1, (ih other found inside).2⟩
      by_cases slash : isSlash first = true
      · rw [segments, if_pos slash] at member
        rcases List.mem_cons.mp member with rfl | found
        · cases inside
        · exact later segment found inside
      · cases cut : segments rest with
        | nil => exact absurd cut (segments_ne_nil rest)
        | cons head others =>
            rw [cut] at later
            simp only [segments, if_neg slash, cut] at member
            rcases List.mem_cons.mp member with rfl | found
            · rcases List.mem_cons.mp inside with rfl | deeper
              · exact ⟨List.mem_cons_self, fun same => slash ((is_slash_iff c).mpr same)⟩
              · exact later head List.mem_cons_self deeper
            · exact later segment (List.mem_cons_of_mem head found) inside

theorem contains_iff (part text : List Char) : contains part text = true ↔ part <:+: text := by
  induction text with
  | nil => simp [contains]
  | cons c rest ih => rw [contains, Bool.or_eq_true, List.isPrefixOf_iff_prefix, ih, List.infix_cons_iff]

theorem utf8_eq (text : String) : utf8 text = text.toList.flatMap String.utf8EncodeChar := by
  have bytes : text.toByteArray = text.toList.utf8Encode := by
    rw [← String.toByteArray_ofList, String.ofList_toList]
  rw [utf8, String.toUTF8_eq_toByteArray, bytes, List.utf8Encode]
  simp

theorem of_utf8_utf8 (text : String) : ofUtf8? (utf8 text) = some text := by
  have valid : text.toByteArray.IsValidUTF8 := text.isValidUTF8
  simp [ofUtf8?, utf8, String.fromUTF8?, valid, String.fromUTF8]

theorem percent_encode_char (c : Char) (member : 0x25 ∈ String.utf8EncodeChar c) : c = '%' := by
  have same : c.toNat = 0x25 := by
    simp only [String.utf8EncodeChar, Char.toNat_val] at member
    repeat' split at member
    all_goals
      simp [← UInt8.toNat_inj] at member
      omega
  exact Char.ext (UInt32.toNat_inj.mp same)

namespace Percent

theorem decode_bytes_plain (bytes : Bytes) (plain : 0x25 ∉ bytes) : decodeBytes bytes = bytes := by
  fun_induction decodeBytes bytes with
  | case1 mark high low tail b hit ih =>
      have escape : mark = 0x25 := by
        unfold escaped? at hit
        split at hit
        · assumption
        · cases hit
      simp [escape] at plain
  | case2 mark high low tail miss ih => rw [ih (fun member => plain (List.mem_cons_of_mem mark member))]
  | case3 bytes short => rfl

theorem decode_plain (text : String) (plain : '%' ∉ text.toList) : decode? text = some text := by
  have bytes : 0x25 ∉ utf8 text := by
    rw [utf8_eq]
    intro member
    obtain ⟨c, inside, hit⟩ := List.mem_flatMap.mp member
    exact plain (percent_encode_char c hit ▸ inside)
  rw [decode?, decode_bytes_plain (utf8 text) bytes, of_utf8_utf8]

end Percent

end Showcase.Text
