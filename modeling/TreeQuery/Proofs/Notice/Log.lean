import Mathlib.Data.List.Induction
import TreeQuery.Notice
/-!
# What a log remembers

A log is told to record notices, to forget what it kept, and to be quiet or not, in any order. It
keeps the line of every notice recorded since it was last cleared, and is quiet when it was told so
last (`NoticeLog.Remembers`, kept by whatever a log is told). A line does not tell where the
component ends: a component with a closing bracket and a space in it can be read as a shorter one,
with a longer message (`Notice.Shifts`), and in no other way do two notices have one line
(`Notice.key_eq_key_iff`). So a log that is asked for a notice, or told to record one, takes it for
the notices recorded before with which it shares its line (`NoticeLog.has_told_iff`).
-/
namespace TreeQuery

namespace Notice

/-- Whether the end of one component, from a closing bracket and a space on, stands at the front of
the other message: the bracket in the component is then taken for the one behind it. -/
def Shifts (first second : Notice) : Prop :=
  ∃ between, second.component = first.component ++ "] " ++ between ∧
    first.message = between ++ "] " ++ second.message

/-- Whether two notices have one line: they are the same, or the line can be read in two ways. -/
def SharesLine (first second : Notice) : Prop :=
  first = second ∨ first.Shifts second ∨ second.Shifts first

/-- The characters of the line of a notice. -/
theorem toList_key (notice : Notice) : notice.key.toList =
    '[' :: (notice.component.toList ++ ']' :: ' ' :: notice.message.toList) := by
  simp [key]

/-- A notice that is shifted to another has its line. -/
theorem Shifts.key_eq {first second : Notice} (shifts : first.Shifts second) :
    first.key = second.key := by
  obtain ⟨between, component, message⟩ := shifts
  rw [key, key, component, message]
  simp only [String.append_assoc]

/-- A line in which one component ends with the other and more is that of a shifted notice. -/
theorem shifts_of_longer {first second : Notice} {more : List Char}
    (component : second.component.toList = first.component.toList ++ more)
    (rest : ']' :: ' ' :: first.message.toList = more ++ ']' :: ' ' :: second.message.toList) :
    first = second ∨ first.Shifts second := by
  match more with
  | [] =>
    obtain ⟨component, message⟩ : first.component = second.component ∧
        first.message = second.message := by
      constructor <;> apply String.toList_inj.mp
      · simpa using component.symm
      · simpa using rest
    exact .inl (by cases first; cases second; simp_all)
  | [character] =>
    simp at rest
  | bracket :: space :: between =>
    simp only [List.cons_append, List.cons.injEq] at rest
    obtain ⟨rfl, rfl, message⟩ := rest
    refine .inr ⟨String.ofList between, ?_, ?_⟩ <;> apply String.toList_inj.mp
    · simpa using component
    · simpa using message

/-- Notices have one line when they are the same or one is shifted to the other, and only then. -/
theorem key_eq_key_iff {first second : Notice} :
    first.key = second.key ↔ first.SharesLine second := by
  constructor
  · intro same
    have characters := congrArg String.toList same
    rw [toList_key, toList_key, List.cons.injEq, List.append_eq_append_iff] at characters
    rcases characters with ⟨-, ⟨more, component, rest⟩ | ⟨more, component, rest⟩⟩
    · exact (shifts_of_longer component rest).imp_right .inl
    · exact (shifts_of_longer component rest).imp Eq.symm .inr
  · rintro (rfl | shifts | shifts)
    · rfl
    · exact shifts.key_eq
    · exact shifts.key_eq.symm

end Notice

namespace NoticeLog

/-- What a log can be told. -/
inductive Call where
  /-- To record a notice. -/
  | record (notice : Notice)
  /-- To forget every notice. -/
  | clear
  /-- To be quiet, or not. -/
  | setQuiet (quiet : Bool)

/-- The log after it is told something, and the line that it shows then, if it shows one. -/
def tell (log : NoticeLog) : Call → NoticeLog × Option String
  | .record notice => log.record notice
  | .clear => (log.clear, none)
  | .setQuiet quiet => (log.setQuiet quiet, none)

/-- A new log after it is told things one after the other. -/
def told (calls : List Call) : NoticeLog := calls.foldl (fun log call => (log.tell call).1) {}

/-- Whether something was called, and nothing of some kind since. -/
def CalledSince (kind : Call → Prop) (event : Call) (calls : List Call) : Prop :=
  ∃ before after, calls = before ++ event :: after ∧ ∀ call ∈ after, ¬kind call

/-- Whether a notice was recorded since the log was last cleared. -/
def Recorded (calls : List Call) (notice : Notice) : Prop :=
  CalledSince (· = .clear) (.record notice) calls

/-- Whether the log was told to be quiet when it was last told to be so or not. -/
def Silenced (calls : List Call) : Prop :=
  CalledSince (fun call => ∃ quiet, call = .setQuiet quiet) (.setQuiet true) calls

/-- Nothing was called before the first call. -/
theorem not_calledSince_nil (kind : Call → Prop) (event : Call) : ¬CalledSince kind event [] := by
  rintro ⟨before, after, none, -⟩
  simp at none

/-- Something was called last, or it was before and the last call is not of the kind. -/
theorem calledSince_append_singleton {kind : Call → Prop} {event last : Call}
    {calls : List Call} : CalledSince kind event (calls ++ [last]) ↔
      last = event ∨ ¬kind last ∧ CalledSince kind event calls := by
  constructor
  · rintro ⟨before, after, whole, none⟩
    rcases List.eq_nil_or_concat after with rfl | ⟨inner, final, rfl⟩
    · exact .inl (List.singleton_inj.mp (List.append_inj' whole rfl).2)
    · rw [List.concat_eq_append, ← List.cons_append, ← List.append_assoc] at whole
      obtain ⟨same, ends⟩ := List.append_inj' whole rfl
      cases ends
      exact .inr ⟨none last (by simp), before, inner, same, fun call inside =>
        none call (by simp [inside])⟩
  · rintro (rfl | ⟨other, before, after, rfl, none⟩)
    · exact ⟨calls, [], rfl, by simp⟩
    · refine ⟨before, after ++ [last], by simp, fun call inside => ?_⟩
      rcases List.mem_append.mp inside with earlier | final
      · exact none call earlier
      · rwa [List.mem_singleton.mp final]

/-- Whether a log keeps what it was told to keep. -/
structure Remembers (log : NoticeLog) (calls : List Call) : Prop where
  /-- The lines kept are those of the notices recorded since it was last cleared. -/
  kept : ∀ line, line ∈ log.kept ↔ ∃ notice, Recorded calls notice ∧ notice.key = line
  /-- It is quiet if it was told so last. -/
  quiet : log.quiet ↔ Silenced calls

/-- A new log remembers that it was told nothing. -/
theorem remembers_nil : Remembers {} [] where
  kept line := by simp [Recorded, not_calledSince_nil]
  quiet := by simp [Silenced, not_calledSince_nil]

/-- Recording a notice keeps its line, whether it was kept before or not. -/
theorem mem_kept_record (log : NoticeLog) (notice : Notice) (line : String) :
    line ∈ (log.record notice).1.kept ↔ line = notice.key ∨ line ∈ log.kept := by
  unfold record
  split
  · rename_i kept
    have listed : notice.key ∈ log.kept := by simpa [has] using kept
    exact ⟨.inr, fun either => either.elim (fun same => same ▸ listed) id⟩
  · exact List.mem_cons

/-- Recording a notice does not make a log quiet, or loud. -/
theorem quiet_record (log : NoticeLog) (notice : Notice) :
    (log.record notice).1.quiet = log.quiet := by
  unfold record
  split <;> rfl

/-- A log remembers whatever it is told next. -/
theorem Remembers.tell {log : NoticeLog} {calls : List Call} (remembers : log.Remembers calls)
    (call : Call) : (log.tell call).1.Remembers (calls ++ [call]) := by
  cases call with
  | record notice =>
    refine ⟨fun line => ?_, ?_⟩
    · simp only [NoticeLog.tell, mem_kept_record, remembers.kept, Recorded,
        calledSince_append_singleton, Call.record.injEq, reduceCtorEq, not_false_eq_true, true_and]
      constructor
      · rintro (rfl | ⟨earlier, recorded, same⟩)
        · exact ⟨notice, .inl rfl, rfl⟩
        · exact ⟨earlier, .inr recorded, same⟩
      · rintro ⟨earlier, rfl | recorded, same⟩
        · exact .inl same.symm
        · exact .inr ⟨earlier, recorded, same⟩
    · simp [NoticeLog.tell, quiet_record, remembers.quiet, Silenced, calledSince_append_singleton]
  | clear =>
    refine ⟨fun line => ?_, ?_⟩
    · simp [NoticeLog.tell, clear, Recorded, calledSince_append_singleton]
    · simpa [NoticeLog.tell, clear, Silenced, calledSince_append_singleton] using remembers.quiet
  | setQuiet quiet =>
    refine ⟨fun line => ?_, ?_⟩
    · simpa [NoticeLog.tell, setQuiet, Recorded, calledSince_append_singleton]
        using remembers.kept line
    · simp [NoticeLog.tell, setQuiet, Silenced, calledSince_append_singleton]

/-- A log remembers all that it was told. -/
theorem remembers_told (calls : List Call) : (told calls).Remembers calls := by
  induction calls using List.reverseRecOn with
  | nil => exact remembers_nil
  | append_singleton calls call ih =>
    rw [told, List.foldl_append]
    exact ih.tell call

/-- A log that remembers its calls has the notices that share a line with one recorded since it was
last cleared. -/
theorem Remembers.has_iff {log : NoticeLog} {calls : List Call} (remembers : log.Remembers calls)
    (notice : Notice) :
    log.has notice ↔ ∃ earlier, Recorded calls earlier ∧ earlier.SharesLine notice := by
  simp only [has, List.contains_iff_mem, remembers.kept, Notice.key_eq_key_iff]

/-- A notice is shown when it is recorded by a log that neither has it nor is quiet. -/
theorem record_eq_some_iff (log : NoticeLog) (notice : Notice) (line : String) :
    (log.record notice).2 = some line ↔
      line = notice.shown ∧ log.quiet = false ∧ log.has notice = false := by
  unfold record
  split
  · rename_i kept
    simp [kept]
  · rename_i new
    cases quiet : log.quiet <;> simp [new, eq_comm]

end NoticeLog

/-- Whatever a log is told, it has a notice when one that shares its line was recorded since the log
was last cleared. Recording a notice shows it when the log is not quiet and there is none such
before it, and shows nothing otherwise. Notices share a line when they are the same, or when one
component holds a closing bracket and a space that can be taken for those behind a component. -/
theorem NoticeLog.has_told_iff (calls : List Call) (notice : Notice) :
    ((told calls).has notice ↔
      ∃ earlier, Recorded calls earlier ∧ earlier.SharesLine notice) ∧
    ∀ line, ((told calls).tell (.record notice)).2 = some line ↔
      line = notice.shown ∧ ¬Silenced calls ∧
        ¬∃ earlier, Recorded calls earlier ∧ earlier.SharesLine notice := by
  have remembers := remembers_told calls
  refine ⟨remembers.has_iff notice, fun line => ?_⟩
  rw [tell, record_eq_some_iff, ← remembers.has_iff, ← remembers.quiet, Bool.not_eq_true,
    Bool.not_eq_true]

/-- A notice whose component holds a bracket is recorded. Another one, never recorded, is taken for
it: the log has that one too, and does not show it when it is recorded. -/
theorem NoticeLog.has_told_bracketInComponent :
    let calls := [.record ⟨"a] b", "c"⟩]
    ¬Recorded calls ⟨"a", "b] c"⟩ ∧ ¬Silenced calls ∧ (told calls).has ⟨"a", "b] c"⟩ ∧
      ((told calls).tell (.record ⟨"a", "b] c"⟩)).2 = none := by
  refine ⟨?_, ?_, by decide, by decide⟩
  · simp [Recorded, CalledSince, List.cons_eq_append_iff]
  · simp [Silenced, CalledSince, List.cons_eq_append_iff]

end TreeQuery
