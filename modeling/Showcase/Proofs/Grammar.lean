import Mathlib.Data.List.DropRight
import Showcase.Proofs.Json
/-!
The grammar of JSON, and skipping as recognition: whatever value the grammar allows is skipped as a whole, up to what
follows it. How deep containers stand in each other makes no difference, because the open ones are kept on a stack.
-/
set_option autoImplicit false

namespace Showcase.Json

def CodeUnit (digits : List Char) (unit : Nat) : Prop := digits.length = 4 ∧ Text.number? 16 digits = some unit

inductive Quoted : List Char → Prop where
  | close : Quoted ['"']
  | plain (c : Char) (rest : List Char) (unquoted : c ≠ '"') (unescaped : c ≠ '\\') (printed : 0x20 ≤ c.toNat)
      (more : Quoted rest) : Quoted (c :: rest)
  | short (c : Char) (rest : List Char) (listed : c ∈ ['"', '\\', '/', 'b', 'f', 'n', 'r', 't']) (more : Quoted rest) :
      Quoted ('\\' :: c :: rest)
  | unit (digits : List Char) (unit : Nat) (rest : List Char) (read : CodeUnit digits unit) (more : Quoted rest) :
      Quoted ('\\' :: 'u' :: (digits ++ rest))

def Digits (text : List Char) : Prop := text ≠ [] ∧ ∀ c ∈ text, c.isDigit = true

inductive Whole : List Char → Prop where
  | zero : Whole ['0']
  | digits (text : List Char) (digits : Digits text) (first : text.head? ≠ some '0') : Whole text

inductive Fraction : List Char → Prop where
  | none : Fraction []
  | point (text : List Char) (digits : Digits text) : Fraction ('.' :: text)

inductive Exponent : List Char → Prop where
  | none : Exponent []
  | mark (c : Char) (sign text : List Char) (marked : c = 'e' ∨ c = 'E') (signed : sign ∈ [[], ['+'], ['-']])
      (digits : Digits text) : Exponent (c :: (sign ++ text))

inductive Number : List Char → Prop where
  | parts (whole fraction exponent : List Char) (first : Whole whole) (second : Fraction fraction)
      (third : Exponent exponent) : Number (whole ++ (fraction ++ exponent))

inductive Scalar : List Char → Prop where
  | null : Scalar ['n', 'u', 'l', 'l']
  | yes : Scalar ['t', 'r', 'u', 'e']
  | no : Scalar ['f', 'a', 'l', 's', 'e']
  | quoted (body : List Char) (quoted : Quoted body) : Scalar ('"' :: body)
  | number (text : List Char) (number : Number text) : Scalar text
  | negative (text : List Char) (number : Number text) : Scalar ('-' :: text)

def Frame.opener : Frame → Char
  | array => '['
  | object => '\x7b'

/-- What stands in front of a value in a container: blanks, and in an object its key. -/
inductive Lead : Frame → List Char → Prop where
  | array (blanks : List Char) (blank : Blank blanks) : Lead .array blanks
  | object (front name gap blanks : List Char) (fronted : Blank front) (quoted : Quoted name) (apart : Blank gap)
      (blank : Blank blanks) : Lead .object (front ++ '"' :: (name ++ (gap ++ ':' :: blanks)))

/-- A value, or the rest of a container from the front of one of its values on. -/
inductive Part where
  | value
  | items (frame : Frame)

inductive Wellformed : Part → List Char → Prop where
  | scalar (text : List Char) (scalar : Scalar text) : Wellformed .value text
  | empty (frame : Frame) (blanks : List Char) (blank : Blank blanks) :
      Wellformed .value (frame.opener :: (blanks ++ [frame.closer]))
  | filled (frame : Frame) (items : List Char) (held : Wellformed (.items frame) items) :
      Wellformed .value (frame.opener :: items)
  | last (frame : Frame) (lead value blanks : List Char) (key : Lead frame lead) (held : Wellformed .value value)
      (blank : Blank blanks) : Wellformed (.items frame) (lead ++ (value ++ (blanks ++ [frame.closer])))
  | more (frame : Frame) (lead value blanks items : List Char) (key : Lead frame lead)
      (held : Wellformed .value value) (blank : Blank blanks) (others : Wellformed (.items frame) items) :
      Wellformed (.items frame) (lead ++ (value ++ (blanks ++ ',' :: items)))

section Quoting

theorem code_unit_read {digits : List Char} {unit : Nat} (read : CodeUnit digits unit) (rest : List Char) :
    codeUnit (digits ++ rest) = .ok (unit, rest) := by
  obtain ⟨count, number⟩ := read
  have enough : ¬ (digits ++ rest).length < 4 := by
    rw [List.length_append]
    omega
  have taken : Text.takeHex? 4 (digits ++ rest) = some (unit, rest) := by
    rw [Text.takeHex?, if_neg enough, ← count, List.take_left, List.drop_left, number]
    rfl
  rw [codeUnit, taken]

theorem skip_quoted_escape (rest behind : List Char) (read : skipEscape rest = .ok behind) :
    skipQuoted ('\\' :: rest) = skipQuoted behind := by
  rw [skipQuoted, if_neg (by decide), if_pos rfl]
  split
  · rename_i fault failed
    rw [read] at failed
    cases failed
  · rename_i left found
    rw [read] at found
    cases found
    rfl

theorem short_escape (c : Char) (listed : c ∈ ['"', '\\', '/', 'b', 'f', 'n', 'r', 't']) :
    c ≠ 'u' ∧ ∃ plain, escapeOf? c = some plain := by
  simp only [List.mem_cons, List.not_mem_nil, or_false] at listed
  rcases listed with rfl | rfl | rfl | rfl | rfl | rfl | rfl | rfl <;> exact ⟨by decide, _, rfl⟩

theorem skip_quoted (body : List Char) (quoted : Quoted body) (rest : List Char) :
    skipQuoted (body ++ rest) = .ok rest := by
  induction quoted with
  | close => rw [List.singleton_append, skipQuoted, if_pos rfl]
  | plain c tail unquoted unescaped printed _ ih =>
      rw [List.cons_append, skipQuoted, if_neg unquoted, if_neg unescaped, if_neg (Nat.not_lt.mpr printed), ih]
  | short c tail listed _ ih =>
      obtain ⟨other, plain, known⟩ := short_escape c listed
      rw [List.cons_append, List.cons_append, skip_quoted_escape (c :: (tail ++ rest)) (tail ++ rest), ih]
      rw [skipEscape, if_neg other, known]
      rfl
  | unit digits unit tail read _ ih =>
      rw [List.cons_append, List.cons_append, List.append_assoc,
        skip_quoted_escape ('u' :: (digits ++ (tail ++ rest))) (tail ++ rest), ih]
      rw [skipEscape, if_pos rfl, code_unit_read read]
      rfl

end Quoting

section Numbers

/-- Nothing that could still belong to a number. -/
def Stops (rest : List Char) : Prop :=
  ∀ c, rest.head? = some c → c.isDigit = false ∧ c ≠ '.' ∧ isExponentMark c = false

def Undigited (rest : List Char) : Prop := ∀ c, rest.head? = some c → c.isDigit = false

theorem digits_head {text : List Char} (digits : Digits text) (rest : List Char) :
    ∃ c tail, text ++ rest = c :: tail ∧ c.isDigit = true := by
  obtain ⟨nonempty, all⟩ := digits
  cases text with
  | nil => exact absurd rfl nonempty
  | cons c tail => exact ⟨c, tail ++ rest, rfl, all c List.mem_cons_self⟩

theorem skip_digits (text rest : List Char) (digits : Digits text) (ended : Undigited rest) :
    skipDigits1 (text ++ rest) = .ok rest := by
  have starts : startsWithDigit (text ++ rest) = true := by
    obtain ⟨c, tail, same, digit⟩ := digits_head digits rest
    simp [startsWithDigit, same, digit]
  have behind : rest.dropWhile Char.isDigit = rest := by
    cases rest with
    | nil => rfl
    | cons c tail => rw [List.dropWhile_cons, ended c rfl, if_neg Bool.false_ne_true]
  rw [skipDigits1, if_pos starts, skipDigits, List.dropWhile_append_of_pos digits.2, behind]

theorem exponent_sign_read (sign text rest : List Char) (signed : sign ∈ [[], ['+'], ['-']]) (digits : Digits text) :
    (exponentSign (sign ++ (text ++ rest))).2 = text ++ rest := by
  obtain ⟨c, tail, same, digit⟩ := digits_head digits rest
  rw [same]
  simp only [List.mem_cons, List.not_mem_nil, or_false] at signed
  rcases signed with rfl | rfl | rfl
  · rw [List.nil_append]
    unfold exponentSign
    split
    · rename_i eq
      cases eq
      cases digit
    · rename_i eq
      cases eq
      cases digit
    · rfl
  · rfl
  · rfl

theorem skip_exponent (text rest : List Char) (exponent : Exponent text) (stops : Stops rest) :
    skipExponent (text ++ rest) = .ok rest := by
  cases exponent with
  | none =>
      cases rest with
      | nil => rfl
      | cons c tail =>
          change (if isExponentMark c then _ else _) = _
          rw [(stops c rfl).2.2, if_neg Bool.false_ne_true]
  | mark c sign digits marked signed held =>
      have mark : isExponentMark c = true := by rcases marked with rfl | rfl <;> rfl
      rw [List.cons_append, List.append_assoc, skipExponent, if_pos mark,
        exponent_sign_read sign digits rest signed held]
      exact skip_digits digits rest held fun c head => (stops c head).1

theorem exponent_undigited (text rest : List Char) (exponent : Exponent text) (stops : Stops rest) :
    Undigited (text ++ rest) ∧ (text ++ rest).head? ≠ some '.' := by
  cases exponent with
  | none => exact ⟨fun c head => (stops c head).1, fun head => (stops '.' head).2.1 rfl⟩
  | mark c sign digits marked _ _ => rcases marked with rfl | rfl <;> simp [Undigited]

theorem skip_fraction (fraction exponent rest : List Char) (first : Fraction fraction) (second : Exponent exponent)
    (stops : Stops rest) : skipFraction (fraction ++ (exponent ++ rest)) = .ok rest := by
  obtain ⟨ended, pointless⟩ := exponent_undigited exponent rest second stops
  cases first with
  | none =>
      rw [List.nil_append]
      unfold skipFraction
      split
      · rename_i tail eq
        rw [eq] at pointless
        exact absurd rfl pointless
      · exact skip_exponent exponent rest second stops
  | point text digits =>
      rw [List.cons_append, skipFraction, skip_digits text (exponent ++ rest) digits ended]
      exact skip_exponent exponent rest second stops

theorem fraction_undigited (fraction rest : List Char) (first : Fraction fraction) (ended : Undigited rest) :
    Undigited (fraction ++ rest) := by
  cases first with
  | none => exact ended
  | point text digits =>
      intro c head
      cases head
      rfl

theorem skip_number (text rest : List Char) (number : Number text) (stops : Stops rest) :
    skipNumber (text ++ rest) = .ok rest := by
  obtain ⟨whole, fraction, exponent, first, second, third⟩ := number
  have skipped := skip_fraction fraction exponent rest second third stops
  have ended : Undigited (fraction ++ (exponent ++ rest)) :=
    fraction_undigited fraction (exponent ++ rest) second (exponent_undigited exponent rest third stops).1
  rw [List.append_assoc, List.append_assoc]
  cases first with
  | zero =>
      have alone : startsWithDigit (fraction ++ (exponent ++ rest)) = false := by
        rw [startsWithDigit]
        cases head : (fraction ++ (exponent ++ rest)).head? with
        | none => rfl
        | some c => exact ended c head
      rw [List.singleton_append, skipNumber, alone, if_neg Bool.false_ne_true, skipped]
  | digits _ digits first =>
      unfold skipNumber
      split
      · rename_i tail eq
        cases whole with
        | nil => exact absurd rfl digits.1
        | cons c others =>
            cases eq
            exact absurd rfl first
      · rw [skip_digits whole _ digits ended]
        exact skipped

end Numbers

section Values

theorem Frame.closer_plain (frame : Frame) : isBlank frame.closer = false := by cases frame <;> rfl

theorem Frame.closer_no_comma (frame : Frame) : frame.closer ≠ ',' := by cases frame <;> decide

theorem stops_mark (blanks : List Char) (blank : Blank blanks) (c : Char) (mark : c ∈ [',', ']', '\x7d'])
    (rest : List Char) : Stops (blanks ++ c :: rest) := by
  intro d head
  cases blanks with
  | nil =>
      cases head
      simp only [List.mem_cons, List.not_mem_nil, or_false] at mark
      rcases mark with rfl | rfl | rfl <;> decide
  | cons first others =>
      cases head
      have held := blank d List.mem_cons_self
      simp only [isBlank, Bool.or_eq_true, beq_iff_eq] at held
      rcases held with ((rfl | rfl) | rfl) | rfl <;> decide

theorem stops_closer (blanks : List Char) (blank : Blank blanks) (frame : Frame) (rest : List Char) :
    Stops (blanks ++ frame.closer :: rest) :=
  stops_mark blanks blank frame.closer (by cases frame <;> decide) rest

theorem digit_facts (c : Char) (digit : c.isDigit = true) :
    isBlank c = false ∧ c ∉ ['n', 't', 'f', '"', '-', '[', '\x7b', ']', '\x7d'] := by
  constructor
  · by_contra blank
    rw [Bool.not_eq_false, isBlank] at blank
    simp only [Bool.or_eq_true, beq_iff_eq] at blank
    rcases blank with ((rfl | rfl) | rfl) | rfl <;> cases digit
  · intro listed
    simp only [List.mem_cons, List.not_mem_nil, or_false] at listed
    rcases listed with rfl | rfl | rfl | rfl | rfl | rfl | rfl | rfl | rfl <;> cases digit

theorem number_head (text : List Char) (number : Number text) : ∃ c tail, text = c :: tail ∧ c.isDigit = true := by
  obtain ⟨whole, fraction, exponent, first, _, _⟩ := number
  cases first with
  | zero => exact ⟨'0', fraction ++ exponent, rfl, rfl⟩
  | digits _ digits _ => exact digits_head digits (fraction ++ exponent)

theorem scalar_head (text : List Char) (scalar : Scalar text) :
    ∃ c tail, text = c :: tail ∧ isBlank c = false ∧ c ∉ ['[', '\x7b', ']', '\x7d'] := by
  cases scalar with
  | null => exact ⟨'n', _, rfl, by decide, by decide⟩
  | yes => exact ⟨'t', _, rfl, by decide, by decide⟩
  | no => exact ⟨'f', _, rfl, by decide, by decide⟩
  | quoted body _ => exact ⟨'"', body, rfl, by decide, by decide⟩
  | number _ number =>
      obtain ⟨c, tail, same, digit⟩ := number_head text number
      obtain ⟨plain, unlisted⟩ := digit_facts c digit
      exact ⟨c, tail, same, plain, fun member => unlisted (by simp only [List.mem_cons] at member ⊢; tauto)⟩
  | negative text _ => exact ⟨'-', text, rfl, by decide, by decide⟩

theorem value_head (text : List Char) (held : Wellformed .value text) :
    ∃ c tail, text = c :: tail ∧ isBlank c = false ∧ c ≠ ']' := by
  cases held with
  | scalar _ scalar =>
      obtain ⟨c, tail, same, plain, unlisted⟩ := scalar_head text scalar
      exact ⟨c, tail, same, plain, fun closing => unlisted (by simp [closing])⟩
  | empty frame blanks _ => exact ⟨frame.opener, _, rfl, by cases frame <;> rfl, by cases frame <;> decide⟩
  | filled frame items _ => exact ⟨frame.opener, _, rfl, by cases frame <;> rfl, by cases frame <;> decide⟩

theorem skip_scalar (text rest : List Char) (scalar : Scalar text) (stops : Stops rest) :
    skipScalar (text ++ rest) = .ok rest := by
  cases scalar with
  | null => rfl
  | yes => rfl
  | no => rfl
  | quoted body quoted => exact skip_quoted body quoted rest
  | number _ number =>
      have skipped := skip_number text rest number stops
      obtain ⟨c, tail, rfl, digit⟩ := number_head text number
      obtain ⟨_, unlisted⟩ := digit_facts c digit
      simp only [List.mem_cons, List.not_mem_nil, or_false, not_or] at unlisted
      rw [List.cons_append] at skipped ⊢
      unfold skipScalar
      split <;> simp_all
  | negative text number => exact skip_number text rest number stops

end Values

section Rounds

def proceed (rounds : Nat) (progress : Except Fault Progress) : Except Fault (List Char) :=
  progress.bind fun
    | .done rest => .ok rest
    | .value stack rest => skipRounds rounds stack rest

theorem skip_rounds_succ (rounds : Nat) (stack : List Frame) (text : List Char) :
    skipRounds (rounds + 1) stack text = proceed rounds (skipOne stack text) := by
  rw [skipRounds, proceed]
  cases skipOne stack text with
  | error fault => rfl
  | ok progress => cases progress <;> rfl

theorem skip_blanks_again (text : List Char) : skipBlanks (skipBlanks text) = skipBlanks text :=
  List.dropWhile_idempotent isBlank text

theorem skip_rounds_blanks (rounds : Nat) (stack : List Frame) (text : List Char) :
    skipRounds rounds stack (skipBlanks text) = skipRounds rounds stack text := by
  cases rounds with
  | zero => rfl
  | succ rounds => rw [skip_rounds_succ, skip_rounds_succ, skipOne, skipOne, skip_blanks_again]

theorem proceed_blanks (rounds : Nat) (frame : Frame) (stack : List Frame) (text : List Char) :
    proceed rounds ((frame.skipKey (skipBlanks text)).map (.value (frame :: stack))) =
      proceed rounds ((frame.skipKey text).map (.value (frame :: stack))) := by
  cases frame with
  | array => exact skip_rounds_blanks rounds (.array :: stack) text
  | object => rw [Frame.skipKey, Frame.skipKey, skip_blanks_again]

theorem skip_key (frame : Frame) (lead : List Char) (key : Lead frame lead) :
    ∃ blanks, Blank blanks ∧ ∀ rest, frame.skipKey (lead ++ rest) = .ok (blanks ++ rest) := by
  cases key with
  | array _ blank => exact ⟨lead, blank, fun _ => rfl⟩
  | object front name gap blanks fronted quoted apart blank =>
      refine ⟨blanks, blank, fun rest => ?_⟩
      have named := skip_quoted name quoted (gap ++ ':' :: (blanks ++ rest))
      rw [List.append_assoc, List.cons_append, List.append_assoc, List.append_assoc, List.cons_append, Frame.skipKey,
        skip_blanks_mark front fronted '"' rfl]
      change (skipQuoted (name ++ (gap ++ ':' :: (blanks ++ rest)))).bind (fun rest => expect ':' (skipBlanks rest)) = _
      rw [named]
      change expect ':' (skipBlanks (gap ++ ':' :: (blanks ++ rest))) = _
      rw [skip_blanks_mark gap apart ':' rfl]
      rfl

theorem lead_head (frame : Frame) (lead value rest : List Char) (key : Lead frame lead)
    (held : Wellformed .value value) :
    ∃ c tail, skipBlanks (lead ++ (value ++ rest)) = c :: tail ∧ c ≠ frame.closer := by
  cases key with
  | array _ blank =>
      obtain ⟨c, tail, rfl, plain, unclosed⟩ := value_head value held
      exact ⟨c, tail ++ rest, skip_blanks_mark lead blank c plain _, unclosed⟩
  | object front name gap blanks fronted _ _ _ =>
      refine ⟨'"', name ++ (gap ++ ':' :: (blanks ++ (value ++ rest))), ?_, by decide⟩
      rw [List.append_assoc, List.cons_append, List.append_assoc, List.append_assoc, List.cons_append]
      exact skip_blanks_mark front fronted '"' rfl _

theorem items_head (frame : Frame) (items rest : List Char) (held : Wellformed (.items frame) items) :
    ∃ c tail, skipBlanks (items ++ rest) = c :: tail ∧ c ≠ frame.closer := by
  cases held with
  | last _ lead value blanks key held _ =>
      rw [List.append_assoc, List.append_assoc]
      exact lead_head frame lead value _ key held
  | more _ lead value blanks items key held _ _ =>
      rw [List.append_assoc, List.append_assoc]
      exact lead_head frame lead value _ key held

theorem skip_one_open (frame : Frame) (stack : List Frame) (front : List Char) (blank : Blank front) (rest : List Char) :
    skipOne stack (front ++ frame.opener :: rest) = openFrame frame stack rest := by
  have opened := skip_blanks_mark front blank frame.opener (by cases frame <;> rfl) rest
  rw [skipOne, opened]
  cases frame <;> rfl

theorem open_frame_close (frame : Frame) (stack : List Frame) (blanks : List Char) (blank : Blank blanks)
    (rest : List Char) : openFrame frame stack (blanks ++ frame.closer :: rest) = afterValue stack rest := by
  rw [openFrame, skip_blanks_mark blanks blank frame.closer frame.closer_plain]
  dsimp only
  rw [if_pos rfl]

theorem open_frame_items (frame : Frame) (stack : List Frame) (items rest : List Char)
    (held : Wellformed (.items frame) items) : openFrame frame stack (items ++ rest) =
      (frame.skipKey (skipBlanks (items ++ rest))).map (.value (frame :: stack)) := by
  obtain ⟨c, tail, start, unclosed⟩ := items_head frame items rest held
  rw [openFrame, start]
  dsimp only
  rw [if_neg unclosed]

theorem skip_one_scalar (stack : List Frame) (front : List Char) (blank : Blank front) (text rest : List Char)
    (scalar : Scalar text) (stops : Stops rest) : skipOne stack (front ++ (text ++ rest)) = afterValue stack rest := by
  have skipped := skip_scalar text rest scalar stops
  obtain ⟨c, tail, rfl, plain, unlisted⟩ := scalar_head text scalar
  simp only [List.mem_cons, List.not_mem_nil, or_false, not_or] at unlisted
  rw [List.cons_append] at skipped ⊢
  rw [skipOne, skip_blanks_mark front blank c plain]
  split
  · rename_i eq
    exact absurd (List.cons.inj eq).1 unlisted.1
  · rename_i eq
    exact absurd (List.cons.inj eq).1 unlisted.2.1
  · rw [skipped]
    rfl

theorem after_value_close (frame : Frame) (stack : List Frame) (blanks : List Char) (blank : Blank blanks)
    (rest : List Char) : afterValue (frame :: stack) (blanks ++ frame.closer :: rest) = afterValue stack rest := by
  rw [afterValue, skip_blanks_mark blanks blank frame.closer frame.closer_plain]
  dsimp only
  rw [if_neg frame.closer_no_comma, if_pos rfl]

theorem after_value_comma (frame : Frame) (stack : List Frame) (blanks : List Char) (blank : Blank blanks)
    (rest : List Char) : afterValue (frame :: stack) (blanks ++ ',' :: rest) =
      (frame.skipKey rest).map (.value (frame :: stack)) := by
  rw [afterValue, skip_blanks_mark blanks blank ',' rfl]
  dsimp only
  rw [if_pos rfl]

/-- What skipping does with each part, on any stack and with any rest, in a number of rounds that the part's length
bounds. -/
def Skipped : Part → List Char → Prop
  | .value, text => ∃ extra ≤ text.length, ∀ front stack rest rounds, Blank front → Stops rest →
      skipRounds (rounds + extra + 1) stack (front ++ (text ++ rest)) = proceed rounds (afterValue stack rest)
  | .items frame, text => ∃ extra ≤ text.length, ∀ stack rest rounds,
      proceed (rounds + extra) ((frame.skipKey (text ++ rest)).map (.value (frame :: stack))) =
        proceed rounds (afterValue stack rest)

theorem entry_skipped (frame : Frame) (lead value : List Char) (key : Lead frame lead) (held : Skipped .value value) :
    ∃ extra ≤ value.length, ∀ stack rest rounds, Stops rest →
      proceed (rounds + (extra + 1)) ((frame.skipKey (lead ++ (value ++ rest))).map (.value (frame :: stack))) =
        proceed rounds (afterValue (frame :: stack) rest) := by
  obtain ⟨extra, bound, skipped⟩ := held
  obtain ⟨front, fronted, led⟩ := skip_key frame lead key
  refine ⟨extra, bound, fun stack rest rounds stops => ?_⟩
  rw [led]
  exact skipped front (frame :: stack) rest rounds fronted stops

theorem part_skipped (part : Part) (text : List Char) (held : Wellformed part text) : Skipped part text := by
  -- By induction on the grammar; the rounds of a container are those of its values and one for each of them.
  induction held with
  | scalar text scalar =>
      refine ⟨0, Nat.zero_le _, fun front stack rest rounds blank stops => ?_⟩
      rw [Nat.add_zero, skip_rounds_succ, skip_one_scalar stack front blank text rest scalar stops]
  | empty frame blanks blank =>
      refine ⟨0, Nat.zero_le _, fun front stack rest rounds fronted _ => ?_⟩
      rw [Nat.add_zero, skip_rounds_succ, List.cons_append, skip_one_open frame stack front fronted, List.append_assoc,
        List.singleton_append, open_frame_close frame stack blanks blank rest]
  | filled frame items held ih =>
      obtain ⟨extra, bound, skipped⟩ := ih
      refine ⟨extra, Nat.le_succ_of_le bound, fun front stack rest rounds fronted _ => ?_⟩
      rw [skip_rounds_succ, List.cons_append, skip_one_open frame stack front fronted,
        open_frame_items frame stack items rest held, proceed_blanks, skipped]
  | last frame lead value blanks key held blank ih =>
      obtain ⟨extra, bound, skipped⟩ := entry_skipped frame lead value key ih
      refine ⟨extra + 1, ?_, fun stack rest rounds => ?_⟩
      · simp only [List.length_append, List.length_cons]
        omega
      · rw [List.append_assoc, List.append_assoc, List.append_assoc, List.singleton_append,
          skipped stack _ rounds (stops_closer blanks blank frame rest), after_value_close frame stack blanks blank rest]
  | more frame lead value blanks items key held blank others ih rest =>
      obtain ⟨extra, bound, skipped⟩ := entry_skipped frame lead value key ih
      obtain ⟨further, within, followed⟩ := rest
      refine ⟨further + (extra + 1), ?_, fun stack rest rounds => ?_⟩
      · simp only [List.length_append, List.length_cons]
        omega
      · rw [List.append_assoc, List.append_assoc, List.append_assoc, List.cons_append, ← Nat.add_assoc,
          skipped stack _ (rounds + further) (stops_mark blanks blank ',' (by decide) _),
          after_value_comma frame stack blanks blank, followed]

theorem skip_value (front value rest : List Char) (fronted : Blank front) (held : Wellformed .value value)
    (stops : Stops rest) : skipValue (front ++ (value ++ rest)) = .ok rest := by
  obtain ⟨extra, bound, skipped⟩ := part_skipped .value value held
  have enough : (front ++ (value ++ rest)).length = front.length + (value.length - extra) + rest.length + extra := by
    simp only [List.length_append]
    omega
  rw [skipValue, enough, skipped front [] rest _ fronted stops]
  rfl

end Rounds

end Showcase.Json
