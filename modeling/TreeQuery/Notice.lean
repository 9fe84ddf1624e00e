/-!
# Notices and the log of notices

A notice tells a user that something is accepted and has no effect. The log keeps each notice
under one line of text and shows it when it is first kept, unless the log is quiet; a quiet log
keeps notices all the same. Clearing forgets what was kept, so that a notice is shown again.
-/
namespace TreeQuery

/-- Something a user should know. -/
structure Notice where
  /-- The part of the program that speaks. -/
  component : String
  /-- What it says. -/
  message : String
  deriving DecidableEq, Repr

namespace Notice

/-- The line a notice is kept under. -/
def key (notice : Notice) : String := "[" ++ notice.component ++ "] " ++ notice.message

/-- The line that shows a notice, in yellow. -/
def shown (notice : Notice) : String :=
  "\x1b[33m[sift " ++ notice.component ++ "] ⚠ " ++ notice.message ++ "\x1b[39m"

end Notice

/-- The notices kept so far. -/
structure NoticeLog where
  /-- The lines kept since the log was last cleared, the newest first. -/
  kept : List String := []
  /-- Whether notices are kept without being shown. -/
  quiet : Bool := false
  deriving DecidableEq, Repr

namespace NoticeLog

/-- Whether a notice is kept. -/
def has (log : NoticeLog) (notice : Notice) : Bool := log.kept.contains notice.key

/-- Keeps a notice, and gives the line that shows it when it is new and the log is not quiet. -/
def record (log : NoticeLog) (notice : Notice) : NoticeLog × Option String :=
  if log.has notice then (log, none)
  else ({ log with kept := notice.key :: log.kept }, if log.quiet then none else some notice.shown)

/-- Keeps notices in order, and gives the lines that show them. -/
def recordAll (log : NoticeLog) : List Notice → NoticeLog × List String
  | [] => (log, [])
  | notice :: later =>
    let (kept, line) := log.record notice
    let (last, lines) := kept.recordAll later
    (last, line.toList ++ lines)

/-- Forgets every notice. -/
def clear (log : NoticeLog) : NoticeLog := { log with kept := [] }

/-- Makes the log quiet, or not. -/
def setQuiet (log : NoticeLog) (quiet : Bool) : NoticeLog := { log with quiet }

/-- A notice recorded is kept. -/
theorem has_record (log : NoticeLog) (notice : Notice) : (log.record notice).1.has notice := by
  unfold record
  split
  · assumption
  · simp [has]

/-- Recording forgets nothing. -/
theorem has_record_of_has {log : NoticeLog} {notice : Notice} (kept : log.has notice)
    (other : Notice) : (log.record other).1.has notice := by
  unfold record
  split
  · exact kept
  · simp only [has, List.contains_cons, Bool.or_eq_true] at kept ⊢
    exact .inr kept

/-- Recording several notices forgets nothing. -/
theorem has_recordAll_of_has {log : NoticeLog} {notice : Notice} (kept : log.has notice)
    (others : List Notice) : (log.recordAll others).1.has notice := by
  induction others generalizing log with
  | nil => exact kept
  | cons other later ih => exact ih (has_record_of_has kept other)

/-- Of several notices recorded, each is kept. -/
theorem has_recordAll_of_mem {notice : Notice} {notices : List Notice} (listed : notice ∈ notices)
    (log : NoticeLog) : (log.recordAll notices).1.has notice := by
  induction notices generalizing log with
  | nil => cases listed
  | cons first later ih =>
    rcases List.mem_cons.mp listed with rfl | behind
    · exact has_recordAll_of_has (log.has_record notice) later
    · exact ih behind _

/-- A cleared log keeps nothing. -/
@[simp] theorem has_clear (log : NoticeLog) (notice : Notice) : log.clear.has notice = false := rfl

/-- Being quiet changes nothing that is kept. -/
@[simp] theorem has_setQuiet (log : NoticeLog) (quiet : Bool) (notice : Notice) :
    (log.setQuiet quiet).has notice = log.has notice := rfl

end NoticeLog

end TreeQuery
