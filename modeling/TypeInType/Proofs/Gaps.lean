import Mathlib.Data.List.Induction
import Mathlib.Data.List.TakeWhile
import TypeInType.Surface.Gap

/-!
Gaps, without a reader: blanks, comments that run up to the end of a line, and comments that
are closed. The reader passes a gap whole, with every character counted, and comes to a stop
where none of these begins, or at a comment that is never closed. Each text begins with a gap
that ends so.
-/

namespace TypeInType

def ClosesComment (text : List Char) : Prop :=
  ['*', '/'] <:+: text

/-- What may stand in front of a text, between its tokens and those before. A line comment
runs up to a newline or to the end of the whole text, and the first end of a block comment
closes it. -/
inductive Gap (behind : List Char) : List Char → Prop where
  | nothing : Gap behind []
  | blank {char : Char} {gap : List Char} :
      isBlank char = true → Gap behind gap → Gap behind (char :: gap)
  | lineComment {comment gap : List Char} :
      '\n' ∉ comment → (∀ char ∈ (gap ++ behind).head?, char = '\n') → Gap behind gap →
        Gap behind ('/' :: '/' :: (comment ++ gap))
  | blockComment {comment gap : List Char} :
      ¬ClosesComment comment → Gap behind gap →
        Gap behind ('/' :: '*' :: (comment ++ '*' :: '/' :: gap))

def Unclosed (text : List Char) : Prop :=
  ∃ comment, text = '/' :: '*' :: comment ∧ ¬ClosesComment comment

structure StartsNoGap (text : List Char) : Prop where
  noBlank : ∀ char ∈ text.head?, isBlank char = false
  noLineComment : ¬['/', '/'] <+: text
  noBlockComment : ¬['/', '*'] <+: text

/-! ## Places -/

/-- The place behind a text from the start of its file: one line for each newline, and one
column for each character since the last of them. -/
def placeBehind (text : List Char) (file : String) : Location :=
  ⟨1 + text.count '\n', 1 + (text.reverse.takeWhile (· ≠ '\n')).length, file⟩

theorem Position.afterAll_concat (position : Position) (text : List Char) (char : Char) :
    position.afterAll (text ++ [char]) = (position.afterAll text).after char :=
  position.afterAll_append text [char]

theorem Position.afterAll_start (text : List Char) :
    Position.start.afterAll text =
      ⟨1 + text.count '\n', 1 + (text.reverse.takeWhile (· ≠ '\n')).length⟩ := by
  induction text using List.reverseRecOn with
  | nil => rfl
  | append_singleton text char ih =>
      rw [afterAll_concat, ih, after]
      by_cases newline : char = '\n'
      · simp [newline]
        omega
      · simp [newline]
        omega

theorem place_afterAll (text : List Char) (file : String) :
    (Position.start.afterAll text).place file = placeBehind text file := by
  rw [Position.afterAll_start, Position.place, placeBehind]
  simp

/-! ## The reader passes a gap -/

theorem skipGap_lineComment {comment rest : List Char} (oneLine : '\n' ∉ comment)
    (stops : ∀ char ∈ rest.head?, char = '\n') (position : Position) :
    skipGap .lineComment position (comment ++ rest) =
      skipGap .between (position.afterAll comment) rest := by
  induction comment generalizing position with
  | nil =>
      cases rest with
      | nil => rfl
      | cons char rest =>
          obtain rfl := stops char rfl
          rfl
  | cons char comment ih =>
      rw [List.mem_cons, not_or] at oneLine
      rw [List.cons_append, skipGap, if_neg (Ne.symm oneLine.1)]
      exact ih oneLine.2 (position.after char)

theorem closesComment_cons_iff (char : Char) (text : List Char) :
    ClosesComment (char :: text) ↔ char = '*' ∧ text.head? = some '/' ∨ ClosesComment text := by
  rw [ClosesComment, List.infix_cons_iff, ClosesComment]
  refine or_congr_left ?_
  cases text with
  | nil => simp
  | cons next text => simp [List.cons_prefix_cons, eq_comm]

theorem skipGap_inComment (opened position : Position) {char : Char} {rest : List Char}
    (goesOn : ¬(char = '*' ∧ rest.head? = some '/')) :
    skipGap (.blockComment opened) position (char :: rest) =
      skipGap (.blockComment opened) (position.after char) rest := by
  rw [skipGap]
  rintro tail rfl rfl
  exact goesOn ⟨rfl, rfl⟩

theorem skipGap_blockComment {comment : List Char} (closedNowhere : ¬ClosesComment comment)
    (opened position : Position) (rest : List Char) :
    skipGap (.blockComment opened) position (comment ++ '*' :: '/' :: rest) =
      skipGap .between (position.afterAll (comment ++ ['*', '/'])) rest := by
  induction comment generalizing position with
  | nil => rfl
  | cons char comment ih =>
      rw [closesComment_cons_iff, not_or] at closedNowhere
      obtain ⟨goesOn, closedNowhere⟩ := closedNowhere
      rw [List.cons_append, skipGap_inComment, ih closedNowhere]
      · rfl
      · rintro ⟨star, slash⟩
        -- The end of the comment starts with a star, so the slash is in the comment.
        cases comment with
        | nil => cases slash
        | cons next comment => exact goesOn ⟨star, slash⟩

theorem skipGap_unclosed {text : List Char} (unclosed : Unclosed text) (position : Position) :
    skipGap .between position text = .error position := by
  obtain ⟨comment, rfl, closedNowhere⟩ := unclosed
  have inside : ∀ current, skipGap (.blockComment position) current comment = .error position := by
    induction comment with
    | nil => exact fun _ => rfl
    | cons char comment ih =>
        intro current
        rw [closesComment_cons_iff, not_or] at closedNowhere
        rw [skipGap_inComment position current closedNowhere.1, ih closedNowhere.2]
  exact inside _

theorem skipGap_blank {char : Char} (blank : isBlank char = true) (position : Position)
    (rest : List Char) :
    skipGap .between position (char :: rest) = skipGap .between (position.after char) rest := by
  have notSlash : char ≠ '/' := by
    rintro rfl
    cases blank
  rw [skipGap]
  · exact if_pos blank
  · exact fun _ same _ => notSlash same
  · exact fun _ same _ => notSlash same

theorem skipGap_gap {behind gap : List Char} (isGap : Gap behind gap) (position : Position) :
    skipGap .between position (gap ++ behind) =
      skipGap .between (position.afterAll gap) behind := by
  induction isGap generalizing position with
  | nothing => rfl
  | blank isBlank _ ih =>
      rw [List.cons_append, skipGap_blank isBlank, ih]
      rfl
  | @lineComment comment gap oneLine stops _ ih =>
      rw [List.cons_append, List.cons_append, List.append_assoc, skipGap,
        skipGap_lineComment oneLine stops, ih, ← Position.afterAll_append,
        ← Position.afterAll_append]
      rfl
  | @blockComment comment gap closedNowhere _ ih =>
      have split : '/' :: '*' :: (comment ++ '*' :: '/' :: gap) =
          ['/', '*'] ++ (comment ++ ['*', '/']) ++ gap := by
        simp
      rw [split, Position.afterAll_append, Position.afterAll_append, ← ih]
      simp only [List.cons_append, List.nil_append, List.append_assoc]
      rw [skipGap, skipGap_blockComment closedNowhere]

theorem skipGap_stops {text : List Char} (starts : StartsNoGap text) (position : Position) :
    skipGap .between position text = .ok (position, text) := by
  obtain ⟨noBlank, noLineComment, noBlockComment⟩ := starts
  cases text with
  | nil => rfl
  | cons char rest =>
      rw [skipGap]
      · exact if_neg (Bool.eq_false_iff.mp (noBlank char rfl))
      · rintro tail rfl rfl
        exact noLineComment ⟨tail, rfl⟩
      · rintro tail rfl rfl
        exact noBlockComment ⟨tail, rfl⟩

/-! ## Every text begins with a gap -/

theorem exists_first_closing {text : List Char} (closes : ClosesComment text) :
    ∃ comment rest, text = comment ++ '*' :: '/' :: rest ∧ ¬ClosesComment comment := by
  induction text with
  | nil => simp [ClosesComment] at closes
  | cons char text ih =>
      by_cases here : char = '*' ∧ text.head? = some '/'
      · obtain ⟨rfl, slash⟩ := here
        obtain ⟨rest, rfl⟩ := List.head?_eq_some_iff.mp slash
        exact ⟨[], rest, rfl, by simp [ClosesComment]⟩
      · obtain ⟨comment, rest, rfl, closedNowhere⟩ :=
          ih (((closesComment_cons_iff _ _).mp closes).resolve_left here)
        refine ⟨char :: comment, rest, rfl, ?_⟩
        rw [closesComment_cons_iff, not_or]
        refine ⟨?_, closedNowhere⟩
        rintro ⟨star, slash⟩
        obtain ⟨others, rfl⟩ := List.head?_eq_some_iff.mp slash
        exact here ⟨star, rfl⟩

theorem exists_gap_part {text : List Char} (starts : ¬StartsNoGap text) :
    (∃ part rest, text = part ++ rest ∧ part ≠ [] ∧
        ∀ gap behind, rest = gap ++ behind → Gap behind gap → Gap behind (part ++ gap)) ∨
      Unclosed text := by
  by_cases lineComment : ['/', '/'] <+: text
  · obtain ⟨tail, rfl⟩ := lineComment
    refine .inl ⟨'/' :: '/' :: tail.takeWhile (· ≠ '\n'), tail.dropWhile (· ≠ '\n'), ?_, ?_, ?_⟩
    · simp
    · exact List.cons_ne_nil _ _
    · intro gap behind split isGap
      refine .lineComment ?_ ?_ isGap
      · intro newline
        simpa using List.mem_takeWhile_imp newline
      · intro char first
        rw [← split] at first
        have stopped := List.head?_dropWhile_not (· ≠ '\n') tail
        rw [first] at stopped
        simpa using stopped
  · by_cases blockComment : ['/', '*'] <+: text
    · obtain ⟨tail, rfl⟩ := blockComment
      by_cases closes : ClosesComment tail
      · obtain ⟨comment, rest, rfl, closedNowhere⟩ := exists_first_closing closes
        refine .inl ⟨'/' :: '*' :: (comment ++ ['*', '/']), rest, ?_, List.cons_ne_nil _ _, ?_⟩
        · simp
        · intro gap behind _ isGap
          simpa using Gap.blockComment closedNowhere isGap
      · exact .inr ⟨tail, rfl, closes⟩
    · -- What is left is a blank.
      cases text with
      | nil => exact absurd ⟨by simp, lineComment, blockComment⟩ starts
      | cons char rest =>
          by_cases blank : isBlank char = true
          · exact .inl ⟨[char], rest, rfl, List.cons_ne_nil _ _,
              fun gap behind _ isGap => .blank blank isGap⟩
          · have noBlank : ∀ first ∈ (char :: rest).head?, isBlank first = false := by
              simpa using blank
            exact absurd ⟨noBlank, lineComment, blockComment⟩ starts

/-- Behind the gap at the front of a text stands no other, save one that is never closed. -/
theorem exists_gap (text : List Char) :
    ∃ gap rest, text = gap ++ rest ∧ Gap rest gap ∧ (StartsNoGap rest ∨ Unclosed rest) := by
  by_cases starts : StartsNoGap text
  · exact ⟨[], text, rfl, .nothing, .inl starts⟩
  · rcases exists_gap_part starts with ⟨part, behind, split, nonempty, prepend⟩ | unclosed
    · have shorter : behind.length < text.length := by
        have positive := List.length_pos_iff.mpr nonempty
        rw [split, List.length_append]
        omega
      obtain ⟨gap, rest, further, isGap, ends⟩ := exists_gap behind
      refine ⟨part ++ gap, rest, ?_, prepend gap rest further isGap, ends⟩
      rw [split, further, List.append_assoc]
    · exact ⟨[], text, rfl, .nothing, .inr unclosed⟩
termination_by text.length

end TypeInType
