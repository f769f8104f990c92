import LineCalc.Proofs.Session.End
import LineCalc.Proofs.Text.Blank
/-!
# The lines that a run executes

A run executes the lines of a program in order up to the first one that is too long, each under its
number among all lines, and passes over the blank ones.

* `AreLines`, `areLines_iff` : the lines of a text, told without splitting it;
* `bufferedLines_eq` : reading them through a buffer, which stops where the buffer is full;
* `Text.trim_dropReturn` : whether a line is blank does not depend on a carriage return at its end;
* `Session.Agrees.runLine` : one line does the same on sessions that agree;
* `Session.runLines_eq_execute` : a run executes these lines one after the other;
* `Session.run_executes_prefix` : what a run leaves, and when it ends with an error.
-/
namespace LineCalc

/-! ## The lines of a text -/

/-- The lines of a text: each but the last is ended by a line break, and what is behind the last
break is a line if it is not empty. -/
def AreLines (text : Bytes) (lines : List Bytes) : Prop :=
  ∃ ended final, text = ended.flatMap (· ++ [0x0a]) ++ final ∧
    (∀ l ∈ ended, ∀ b ∈ l, b ≠ 0x0a) ∧ (∀ b ∈ final, b ≠ 0x0a) ∧
    lines = if final = [] then ended else ended ++ [final]

/-- Every text has lines. -/
theorem exists_areLines (text : Bytes) : ∃ lines, AreLines text lines := by
  suffices h : ∃ (ended : List Bytes) (final : Bytes),
      text = ended.flatMap (· ++ [0x0a]) ++ final ∧
        (∀ l ∈ ended, ∀ b ∈ l, b ≠ 0x0a) ∧ ∀ b ∈ final, b ≠ 0x0a by
    obtain ⟨ended, final, htext, hended, hfinal⟩ := h
    exact ⟨_, ended, final, htext, hended, hfinal, rfl⟩
  induction text with
  | nil => exact ⟨[], [], rfl, List.forall_mem_nil _, List.forall_mem_nil _⟩
  | cons b text ih =>
      obtain ⟨ended, final, rfl, hended, hfinal⟩ := ih
      by_cases hb : b = 0x0a
      · subst hb
        exact ⟨[] :: ended, final, rfl, List.forall_mem_cons.2 ⟨List.forall_mem_nil _, hended⟩,
          hfinal⟩
      · cases ended with
        | nil => exact ⟨[], b :: final, rfl, hended, List.forall_mem_cons.2 ⟨hb, hfinal⟩⟩
        | cons l ended =>
            obtain ⟨hl, hended⟩ := List.forall_mem_cons.1 hended
            exact ⟨(b :: l) :: ended, final, rfl,
              List.forall_mem_cons.2 ⟨List.forall_mem_cons.2 ⟨hb, hl⟩, hended⟩, hfinal⟩

/-- **The lines of a program** are the lines of its text. -/
theorem areLines_iff {text : Bytes} {lines : List Bytes} :
    AreLines text lines ↔ lines = programLines text := by
  have hlines : ∀ lines, AreLines text lines → lines = programLines text := by
    rintro lines ⟨ended, final, rfl, hended, hfinal, rfl⟩
    rw [programLines, Bytes.splitAt_flatMap_append hended, Bytes.splitAt_of_forall_ne hfinal]
    simp
  constructor
  · exact hlines lines
  · rintro rfl
    obtain ⟨lines, h⟩ := exists_areLines text
    rwa [← hlines lines h]

/-- The text up to its first break. -/
def firstLine (text : Bytes) : Bytes := text.takeWhile (· != 0x0a)

/-- The first line is the whole text, or it is ended by a break and the lines of what is behind that
follow. -/
theorem firstLine_cases {text : Bytes} (hne : text ≠ []) :
    (firstLine text = text ∧ programLines text = [firstLine text]) ∨
      ∃ rest, text = firstLine text ++ 0x0a :: rest ∧
        programLines text = firstLine text :: programLines rest := by
  have hbreak : ∀ b ∈ firstLine text, b ≠ 0x0a := fun b hb => by
    simpa using List.mem_takeWhile_imp hb
  have hsplit : firstLine text ++ text.dropWhile (· != 0x0a) = text :=
    List.takeWhile_append_dropWhile
  have hhead := List.head?_dropWhile_not (· != 0x0a) text
  cases hrest : text.dropWhile (· != 0x0a) with
  | nil =>
      rw [hrest, List.append_nil] at hsplit
      refine .inl ⟨hsplit, (areLines_iff.1 ?_).symm⟩
      rw [hsplit] at hbreak ⊢
      exact ⟨[], text, rfl, List.forall_mem_nil _, hbreak, (if_neg hne).symm⟩
  | cons b rest =>
      rw [hrest] at hsplit hhead
      obtain rfl : b = 0x0a := by simpa using hhead
      refine .inr ⟨rest, hsplit.symm, (areLines_iff.1 ?_).symm⟩
      obtain ⟨ended, final, htext, hended, hfinal, hlines⟩ :=
        areLines_iff.2 (rfl : programLines rest = programLines rest)
      refine ⟨firstLine text :: ended, final, ?_, List.forall_mem_cons.2 ⟨hbreak, hended⟩, hfinal,
        ?_⟩
      · rw [List.flatMap_cons, List.append_assoc, ← htext, List.append_assoc]
        exact hsplit.symm
      · rw [hlines]
        split
        · rfl
        · rfl

/-! ## Reading lines through a buffer -/

/-- The lines that are read through a buffer of `lineLimit` bytes, and whether reading stops because
the buffer is full and has no line break. -/
def bufferedLines (text : Bytes) : List Bytes × Bool :=
  if text = [] then ([], false)
  else
    let buffer := text.take lineLimit
    let line := firstLine buffer
    if line.length < buffer.length then
      Prod.map (line :: ·) id (bufferedLines (text.drop (line.length + 1)))
    else if buffer.length < lineLimit then ([line], false)
    else ([], true)
termination_by text.length
decreasing_by
  have := List.length_pos_of_ne_nil ‹_›
  rw [List.length_drop]
  omega

/-- **A buffer reads the lines before the first one that is too long**, and gets full just if there
is such a line. -/
theorem bufferedLines_eq (text : Bytes) : bufferedLines text =
    ((programLines text).takeWhile (·.length < lineLimit),
      (programLines text).any (lineLimit ≤ ·.length)) := by
  have hcut : ∀ text, firstLine (text.take lineLimit) = (firstLine text).take lineLimit :=
    fun text => List.take_takeWhile.symm
  have hwhole : ∀ line : Bytes, line.length < lineLimit → line.take lineLimit = line :=
    fun line h => List.take_of_length_le (Nat.le_of_lt h)
  fun_induction bufferedLines text with
  | case1 => rfl
  | case2 text hne buffer line hline ih =>
      -- the buffer has a break, and its first line is that of the text
      simp only [line, buffer, hcut, List.length_take] at hline
      rcases firstLine_cases hne with ⟨htext, -⟩ | ⟨rest, htext, hlines⟩
      · rw [htext] at hline
        omega
      · have hshort : (firstLine text).length < lineLimit := by omega
        have hfirst : line = firstLine text := (hcut text).trans (hwhole _ hshort)
        have hdrop : text.drop (line.length + 1) = rest := by
          rw [hfirst]
          exact (congrArg (List.drop _) htext).trans (by simp)
        rw [ih, hdrop, hlines, hfirst, List.takeWhile_cons_of_pos (by simpa using hshort),
          List.any_cons]
        simp [hshort]
  | case3 text hne buffer line hline hlength =>
      -- the end of the text is in the buffer, and no break
      simp only [line, buffer, hcut, List.length_take] at hline hlength
      rcases firstLine_cases hne with ⟨htext, hlines⟩ | ⟨rest, htext, -⟩
      · have hshort : (firstLine text).length < lineLimit := by
          rw [htext]
          omega
        have hfirst : line = firstLine text := (hcut text).trans (hwhole _ hshort)
        rw [hlines, hfirst, List.takeWhile_cons_of_pos (by simpa using hshort), List.any_cons]
        simp [hshort]
      · have hlonger := congrArg List.length htext
        rw [List.length_append, List.length_cons] at hlonger
        omega
  | case4 text hne buffer line hline hlength =>
      -- the first line of the text fills the buffer
      simp only [line, buffer, hcut, List.length_take] at hline hlength
      have hlong : lineLimit ≤ (firstLine text).length := by omega
      obtain ⟨more, hlines⟩ : ∃ more, programLines text = firstLine text :: more := by
        rcases firstLine_cases hne with ⟨-, hlines⟩ | ⟨rest, -, hlines⟩
        · exact ⟨[], hlines⟩
        · exact ⟨programLines rest, hlines⟩
      rw [hlines, List.takeWhile_cons_of_neg (by simpa using hlong), List.any_cons]
      simp [hlong]

/-! ## Lines to execute -/

/-- A line without one carriage return at its end. -/
def dropReturn (line : Bytes) : Bytes :=
  if line.getLast? = some 0x0d then line.dropLast else line

/-- Trimming a line takes a carriage return at its end off, too. -/
theorem Text.trim_dropReturn (line : Bytes) : trim (dropReturn line) = trim line := by
  unfold dropReturn
  split
  · next h =>
      obtain ⟨rest, rfl⟩ := List.getLast?_eq_some_iff.1 h
      rw [List.dropLast_concat, trim_concat_return]
  · rfl

/-- The lines that are to be executed: those that are not blank, without the white space around
them, with their numbers from `number` on. -/
def toExecute (number : Nat) (lines : List Bytes) : List (Nat × Bytes) :=
  ((lines.zipIdx number).map fun p => (p.2, Text.trim (dropReturn p.1))).filter (·.2 ≠ [])

/-- The first line is to be executed if it is not blank. -/
theorem toExecute_cons (number : Nat) (line : Bytes) (lines : List Bytes) :
    toExecute number (line :: lines) =
      if (Text.trim line).isEmpty then toExecute (number + 1) lines
      else (number, Text.trim line) :: toExecute (number + 1) lines := by
  simp only [toExecute, List.zipIdx_cons, List.map_cons, Text.trim_dropReturn, List.filter_cons,
    List.isEmpty_iff, decide_eq_true_eq, ne_eq, ite_not]

namespace Session

/-! ## Sessions that agree -/

/-- The sessions have the same table, options, count of errors and output. -/
structure Agrees (s s' : Session) : Prop extends Keeps s s' where
  output : s'.output = s.output

/-- **A line does the same on sessions that agree.** -/
theorem Agrees.runLine {s s' : Session} (h : Agrees s s') (number : Nat) (line : Bytes) :
    Agrees (s.runLine number line) (s'.runLine number line) := by
  obtain ⟨hwritten, htable, hoptions⟩ := runLine_congr h.table h.options number line
  refine ⟨⟨htable, hoptions, ?_⟩, ?_⟩
  · rw [(runLine_spec s number line).2.2, (runLine_spec s' number line).2.2, h.errors, h.table,
      h.options]
  · exact (runLine_output ⟨s', number, line⟩).trans
      (by rw [hwritten, h.output]; exact (runLine_output ⟨s, number, line⟩).symm)

/-- The session after lines that are executed one after the other, each under its number. -/
def execute (s : Session) (lines : List (Nat × Bytes)) : Session :=
  lines.foldl (fun s p => s.runLine p.1 p.2) s

/-- Lines do the same on sessions that agree. -/
theorem Agrees.execute (lines : List (Nat × Bytes)) :
    ∀ {s s' : Session}, Agrees s s' → Agrees (s.execute lines) (s'.execute lines) := by
  induction lines with
  | nil => exact fun h => h
  | cons p lines ih => exact fun h => ih (h.runLine p.1 p.2)

/-! ## Runs -/

/-- **A run executes the lines before the first one that is too long**, those of them that are not
blank. -/
theorem runLines_eq_execute (lines : List Bytes) : ∀ (s : Session) (number : Nat),
    (s.runLines false number lines).1 =
      s.execute (toExecute number (lines.takeWhile (·.length < lineLimit))) := by
  induction lines with
  | nil => exact fun s number => rfl
  | cons line lines ih =>
      intro s number
      rw [runLines]
      by_cases hline : line.length < lineLimit
      · rw [if_neg (Nat.not_le.2 hline), if_neg (by simp),
          List.takeWhile_cons_of_pos (by simpa using hline), toExecute_cons]
        by_cases hblank : (Text.trim line).isEmpty
        · simp only [hblank, if_true]
          exact ih s (number + 1)
        · simp only [hblank, Bool.false_eq_true, if_false]
          exact ih (s.runLine number (Text.trim line)) (number + 1)
      · rw [if_pos (Nat.not_lt.1 hline), List.takeWhile_cons_of_neg (by simpa using hline)]
        rfl

/-- A run that is cancelled beforehand executes nothing. -/
theorem runLines_cancelled (s : Session) (number : Nat) (lines : List Bytes) :
    (s.runLines true number lines).1 = s :=
  (runLines_executed true s number lines).1

/-- Announcing a run leaves a session that agrees. -/
theorem agrees_announce (s : Session) : Agrees s s.announce :=
  ⟨s.announce_keeps, s.output_announce⟩

/-- **A run executes a prefix of the lines**, each once and under its number.  Of any session and
text:

* the lines of the program are those of the text, and reading them through a buffer of a mebibyte
  gives those before the first line of that length or more, and stops at this line if there is one;
* the run leaves the output, the table and the count of errors that these lines leave when they are
  executed in order, each with its number among all lines; those that are empty without a carriage
  return at their end and without the white space around them are left out;
* it ends with an error just if there is a line of that length;
* a run that is cancelled beforehand leaves output, table and count as they were. -/
theorem run_executes_prefix (s : Session) (text : Bytes) :
    let lines := programLines text
    let short := lines.takeWhile (·.length < lineLimit)
    let last := s.execute (toExecute 1 short)
    ((∀ ls, AreLines text ls ↔ ls = lines) ∧
      bufferedLines text = (short, lines.any (lineLimit ≤ ·.length))) ∧
    ((s.run text false).1.output = last.output ∧ (s.run text false).1.table = last.table ∧
      (s.run text false).1.errors = last.errors) ∧
    ((s.run text false).2 ≠ none ↔ ∃ line ∈ lines, lineLimit ≤ line.length) ∧
    (s.run text true).1.output = s.output ∧ (s.run text true).1.table = s.table ∧
      (s.run text true).1.errors = s.errors := by
  intro lines short last
  have hagrees : Agrees last (s.run text false).1 := by
    rw [run, runLines_eq_execute]
    exact s.agrees_announce.execute _
  have hcancelled : Agrees s (s.run text true).1 := by
    rw [run, runLines_cancelled]
    exact s.agrees_announce
  refine ⟨⟨fun ls => areLines_iff, bufferedLines_eq text⟩,
    ⟨hagrees.output, hagrees.table, hagrees.errors⟩, ?_,
    hcancelled.output, hcancelled.table, hcancelled.errors⟩
  rw [run, runLines_error]
  split
  · next h => simpa using h
  · next h => simpa using h

end Session

end LineCalc
