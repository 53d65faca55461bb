import Intake.Text.Utf8

/-!
Lines of a stream of bytes. A line ends with a line feed, before which one
carriage return is dropped; what stands behind the last line feed is a line too
unless it is empty. Each line is text of its own, so bytes that are no text spoil
their line only.
-/
namespace Intake.Text

/-- The bytes up to and with the next line feed, and the rest. -/
def cutLine : List UInt8 → List UInt8 × List UInt8
  | [] => ([],[])
  | b :: rest => if b = 0x0a then ([b],rest) else
    let (line,rest) := cutLine rest
    (b :: line,rest)

theorem length_cutLine (bytes : List UInt8) : (cutLine bytes).2.length ≤ bytes.length := by
  induction bytes with
  | nil => simp [cutLine]
  | cons b rest ih =>
    unfold cutLine
    split
    · simp
    · simp only [List.length_cons]; omega

theorem length_cutLine_cons (b : UInt8) (rest : List UInt8) : (cutLine (b :: rest)).2.length ≤ rest.length := by
  have h := length_cutLine rest
  unfold cutLine
  split
  · simp
  · exact h

/-- The lines of a stream, with the line feeds at their ends. -/
def rawLines : List UInt8 → List (List UInt8)
  | [] => []
  | b :: rest =>
    let line := (cutLine (b :: rest)).1
    line :: rawLines (cutLine (b :: rest)).2
termination_by bytes => bytes.length
decreasing_by have := length_cutLine_cons b rest; simp; omega

/-- Whether a line has its line feed. -/
def isEnded (line : List UInt8) : Bool := line.getLast? = some 0x0a

/-- A line without its line feed and the carriage return before it. -/
def dropEnd (line : List Char) : List Char :=
  match line.reverse with
  | '\n' :: '\r' :: rest => rest.reverse
  | '\n' :: rest => rest.reverse
  | _ => line

/-- A line as text, or where it is none. -/
def lineText (line : List UInt8) : Except Utf8.Fault String := do
  let text ← Utf8.decode line
  return String.ofList (dropEnd text)

/-- The lines of a stream that has ended. -/
def lines (bytes : List UInt8) : List (Except Utf8.Fault String) := (rawLines bytes).map lineText

/-- The lines that have been read of a stream that goes on. -/
def endedLines (bytes : List UInt8) : List (Except Utf8.Fault String) :=
  ((rawLines bytes).filter isEnded).map lineText

end Intake.Text
