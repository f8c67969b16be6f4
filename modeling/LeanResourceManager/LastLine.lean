import Mathlib.Data.List.TakeWhile
import LeanResourceManager.Library.LastRun

/-!
`Utils::getLastLine` of `UtilsFile.h`, which its comment calls equivalent to
`tr -s '\r' '\n' | tail -n 1`.
-/

namespace LeanResourceManager

open LeanLastRun

def newline : UInt8 := 10

def carriageReturn : UInt8 := 13

/-- `getline` with the delimiter `'\n'`; it fails if no character is left. -/
def getline (stream : List UInt8) : Option (List UInt8 × List UInt8) :=
  if stream = [] then none
  else some (stream.takeWhile (· ≠ newline), (stream.dropWhile (· ≠ newline)).tail)

theorem getline_eq_some {stream line rest : List UInt8}
    (found : getline stream = some (line, rest)) :
    newline ∉ line ∧ ((stream = line ∧ line ≠ [] ∧ rest = []) ∨ stream = line ++ newline :: rest) := by
  simp only [getline] at found
  split at found
  · simp at found
  · rename_i nonempty
    simp only [Option.some.injEq, Prod.mk.injEq] at found
    obtain ⟨sameLine, sameRest⟩ := found
    have clean : newline ∉ line := by
      intro member
      rw [← sameLine] at member
      simpa using List.mem_takeWhile_imp member
    refine ⟨clean, ?_⟩
    have split : stream.takeWhile (· ≠ newline) ++ stream.dropWhile (· ≠ newline) = stream :=
      List.takeWhile_append_dropWhile
    rw [sameLine] at split
    cases left : stream.dropWhile (· ≠ newline) with
    | nil =>
        rw [left, List.append_nil] at split
        rw [left, List.tail_nil] at sameRest
        exact .inl ⟨split.symm, split ▸ nonempty, sameRest.symm⟩
    | cons separator others =>
        have isSeparator : separator = newline := by
          have some : stream.dropWhile (· ≠ newline) ≠ [] := left ▸ List.cons_ne_nil _ _
          have stops := List.head_dropWhile_not (· ≠ newline) some
          simp only [left, List.head_cons] at stops
          simpa using stops
        rw [left, List.tail_cons] at sameRest
        rw [left, isSeparator, sameRest] at split
        exact .inr split.symm

theorem getline_shorter {stream line rest : List UInt8} (found : getline stream = some (line, rest)) :
    rest.length < stream.length := by
  obtain ⟨_, ⟨same, nonempty, last⟩ | split⟩ := getline_eq_some found
  · rw [same, last]
    exact List.length_pos_of_ne_nil nonempty
  · rw [split, List.length_append, List.length_cons]
    omega

def readLines (stream : List UInt8) (resStr : List UInt8) (retValue : Bool) : Bool × List UInt8 :=
  match _ : getline stream with
  | none => (retValue, resStr)
  | some (readLine, rest) =>
      if readLine ≠ [] then readLines rest readLine true else readLines rest resStr retValue
termination_by stream.length
decreasing_by all_goals exact getline_shorter (by assumption)

def getLastLine (input : List UInt8) (resStr : List UInt8) : Bool × List UInt8 :=
  if input ≠ [] then readLines input resStr false else (false, resStr)

theorem readLines_last_run (stream resStr : List UInt8) (retValue : Bool) :
    (∃ run, LastRun (· = newline) stream run ∧ readLines stream resStr retValue = (true, run)) ∨
    ((∀ byte ∈ stream, byte = newline) ∧
      readLines stream resStr retValue = (retValue, resStr)) := by
  fun_induction readLines stream resStr retValue with
  | case1 stream resStr retValue ended =>
      have empty : stream = [] := by
        by_contra nonempty
        simp [getline, nonempty] at ended
      exact .inr ⟨by simp [empty], rfl⟩
  | case2 stream resStr retValue readLine rest found nonempty ih =>
      obtain ⟨clean, shape⟩ := getline_eq_some found
      have inside : ∀ byte ∈ readLine, byte ≠ newline :=
        fun byte member same => clean (same ▸ member)
      rcases ih with ⟨run, last, returned⟩ | ⟨trailing, returned⟩
      · refine .inl ⟨run, ?_, returned⟩
        rcases shape with ⟨_, _, atEnd⟩ | split
        · obtain ⟨_, _, noRun, runNonempty, _⟩ := last
          simp [atEnd, runNonempty] at noRun
        · rw [split]
          exact last.prepend readLine rfl
      · refine .inl ⟨readLine, ?_, returned⟩
        rcases shape with ⟨same, _, _⟩ | split
        · rw [same]
          have last : LastRun (· = newline) (readLine ++ []) readLine :=
            lastRun_of_trailing nonempty inside (by simp)
          rwa [List.append_nil] at last
        · rw [split]
          refine lastRun_of_trailing nonempty inside ?_
          simpa using trailing
  | case3 stream resStr retValue readLine rest found empty ih =>
      obtain ⟨_, shape⟩ := getline_eq_some found
      have noLine : readLine = [] := not_not.mp empty
      have split : stream = newline :: rest := by
        rcases shape with ⟨_, nonempty, _⟩ | split
        · exact absurd noLine nonempty
        · rw [split, noLine, List.nil_append]
      rcases ih with ⟨run, last, returned⟩ | ⟨trailing, returned⟩
      · refine .inl ⟨run, ?_, returned⟩
        rw [split]
        exact last.prepend [] rfl
      · refine .inr ⟨?_, returned⟩
        rw [split]
        simpa using trailing

theorem getLastLine_last_run (input resStr : List UInt8) :
    (∃ run, LastRun (· = newline) input run ∧ getLastLine input resStr = (true, run)) ∨
    ((∀ byte ∈ input, byte = newline) ∧ getLastLine input resStr = (false, resStr)) := by
  by_cases nonempty : input ≠ []
  · rw [getLastLine, if_pos nonempty]
    exact readLines_last_run input resStr false
  · rw [getLastLine, if_neg nonempty, not_not.mp nonempty]
    exact .inr ⟨by simp, rfl⟩

def IsLineBreak (byte : UInt8) : Prop := byte = newline ∨ byte = carriageReturn

/-- The outcome that the comment of `getLastLine` describes: the last non-empty line
once every carriage return is a newline, or no change if there is none. -/
def DocumentedLastLine (input resStr : List UInt8) (outcome : Bool × List UInt8) : Prop :=
  (∃ run, LastRun IsLineBreak input run ∧ outcome = (true, run)) ∨
  ((∀ byte ∈ input, IsLineBreak byte) ∧ outcome = (false, resStr))

/-- A line that is not blank starts after every carriage return. -/
def ReturnsFollowed (input : List UInt8) : Prop :=
  ∀ before after, input = before ++ carriageReturn :: after →
    ∃ line later, after = line ++ newline :: later ∧ ∃ byte ∈ later, byte ≠ newline

theorem documented_iff_no_return {input run resStr : List UInt8}
    (last : LastRun (· = newline) input run) :
    DocumentedLastLine input resStr (true, run) ↔ carriageReturn ∉ run := by
  obtain ⟨before, after, split, nonempty, inside, trailing, boundary⟩ := last
  constructor
  · rintro (⟨documented, ⟨_, _, _, _, clean, _⟩, same⟩ | ⟨_, same⟩) member
    · rw [(Prod.mk.inj same).2] at member
      exact clean _ member (.inr rfl)
    · simp at same
  · intro clean
    refine .inl ⟨run, ⟨before, after, split, nonempty, ?_, ?_, ?_⟩, rfl⟩
    · rintro byte member (isNewline | isReturn)
      · exact inside byte member isNewline
      · exact clean (isReturn ▸ member)
    · exact fun byte member => .inl (trailing byte member)
    · exact fun byte member => .inl (boundary byte member)

theorem returnsFollowed_iff_no_return {input run : List UInt8}
    (last : LastRun (· = newline) input run) :
    ReturnsFollowed input ↔ carriageReturn ∉ run := by
  obtain ⟨before, after, split, nonempty, inside, trailing, boundary⟩ := last
  constructor
  · intro followed member
    obtain ⟨first, second, inRun⟩ := List.append_of_mem member
    have whole : input = (before ++ first) ++ carriageReturn :: (second ++ after) := by
      rw [split, inRun]
      simp
    obtain ⟨line, later, cut, byte, isLater, different⟩ := followed _ _ whole
    rcases List.append_eq_append_iff.mp cut with ⟨rest, _, tail⟩ | ⟨rest, shorter, tail⟩
    · exact different (trailing byte (by simp [tail, isLater]))
    · cases rest with
      | nil =>
          rw [List.nil_append] at tail
          exact different (trailing byte (by simp [← tail, isLater]))
      | cons separator others =>
          have isSeparator : newline = separator := (List.cons.inj tail).1
          refine inside newline ?_ rfl
          simp [inRun, shorter, isSeparator]
  · intro clean first second whole
    have noReturn : carriageReturn ∉ run ++ after := by
      intro member
      rcases List.mem_append.mp member with inRun | inAfter
      · exact clean inRun
      · exact absurd (trailing _ inAfter) (by decide)
    rw [split, List.append_assoc] at whole
    rcases List.append_eq_append_iff.mp whole with ⟨rest, _, tail⟩ | ⟨rest, longer, tail⟩
    · exact absurd (by simp [tail]) noReturn
    · cases rest with
      | nil =>
          rw [List.nil_append] at tail
          exact absurd (tail ▸ List.mem_cons_self) noReturn
      | cons isReturn between =>
          obtain ⟨same, follows⟩ := List.cons.inj tail
          rcases List.eq_nil_or_concat between with none | ⟨line, separator, ends⟩
          · have isNewline := boundary isReturn (by simp [longer, none])
            exact absurd (same.trans isNewline) (by decide)
          · have last : before = (first ++ isReturn :: line) ++ [separator] := by
              simp [longer, ends]
            have isNewline := boundary separator (by rw [last, List.getLast?_concat]; rfl)
            refine ⟨line, run ++ after, by simp [follows, ends, isNewline], ?_⟩
            obtain ⟨byte, member⟩ := List.exists_mem_of_ne_nil run nonempty
            exact ⟨byte, List.mem_append_left _ member, inside byte member⟩

/-- `getLastLine` does what its comment says exactly on the inputs in which a line that
is not blank follows every carriage return. -/
theorem getLastLine_documented_iff (input resStr : List UInt8) :
    DocumentedLastLine input resStr (getLastLine input resStr) ↔ ReturnsFollowed input := by
  rcases getLastLine_last_run input resStr with ⟨run, last, returned⟩ | ⟨blank, returned⟩
  · rw [returned, documented_iff_no_return last, returnsFollowed_iff_no_return last]
  · rw [returned]
    refine iff_of_true (.inr ⟨fun byte member => .inl (blank byte member), rfl⟩) ?_
    intro before after split
    have isNewline := blank carriageReturn (by simp [split])
    exact absurd isNewline (by decide)

theorem getLastLine_keeps_carriage_return :
    getLastLine [111, 107, 13, 10] [] = (true, [111, 107, 13]) ∧
      ¬DocumentedLastLine [111, 107, 13, 10] [] (getLastLine [111, 107, 13, 10] []) := by
  have returned : getLastLine [111, 107, 13, 10] [] = (true, [111, 107, 13]) := by
    simp [getLastLine, readLines, getline, newline]
  refine ⟨returned, ?_⟩
  rw [returned]
  rintro (⟨run, ⟨_, _, _, _, clean, _⟩, same⟩ | ⟨_, same⟩)
  · rw [← (Prod.mk.inj same).2] at clean
    exact clean carriageReturn (by decide) (.inr rfl)
  · simp at same

end LeanResourceManager
