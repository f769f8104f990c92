import LineCalc.Proofs.Session.Visits
import LineCalc.Proofs.Session.Lines
/-!
# What a run writes

The output of a run is what its lines write, one behind the other, and each of them writes the lines
of its step and the complaint about it.

* `Session.runLine_output` : what a line writes;
* `Session.visits_append`, `Session.visits_programLines` : the visits of lines that follow others,
  and of a program;
* `Session.runLines_visits`, `Session.run_visits` : a run leaves the table of its last line and
  writes what its lines write.
-/
namespace LineCalc

namespace Session

/-- Announcing a run writes nothing. -/
theorem output_announce (s : Session) : s.announce.output = s.output := by
  obtain ⟨source, log, h⟩ := s.exists_announce
  rw [h]

/-- **What a line writes** goes to the output, piece by piece. -/
theorem runLine_output (v : Visit) :
    (v.session.runLine v.number v.line).output =
      v.written.foldl Output.write v.session.output := by
  obtain ⟨store, hstore, log, -, h⟩ := exists_runLine v
  rw [h]

/-- The session after the lines that are visited. -/
def afterVisits (s : Session) (vs : List Visit) : Session :=
  vs.foldl (fun _ v => v.session.runLine v.number v.line) s

/-- What comes after some lines is visited with the session that they leave. -/
theorem visits_append (lines : List Bytes) : ∀ (s : Session) (number : Nat) (rest : List Bytes),
    s.visits number (lines ++ rest) = s.visits number lines ++
      (s.afterVisits (s.visits number lines)).visits (number + lines.length) rest := by
  induction lines with
  | nil => exact fun s number rest => rfl
  | cons line lines ih =>
      intro s number rest
      have hnumber : number + (line :: lines).length = number + 1 + lines.length := by
        rw [List.length_cons]
        omega
      rw [List.cons_append, visits, visits, hnumber]
      split
      · exact ih s (number + 1) rest
      · rw [ih, List.cons_append]
        rfl

/-- The visits of a program are those of its text, cut at the line breaks: what comes after the last
of these is no line if it is empty, and would not be visited. -/
theorem visits_programLines (s : Session) (number : Nat) (text : Bytes) :
    s.visits number (programLines text) = s.visits number (Bytes.splitAt 0x0a text) := by
  simp only [programLines]
  split
  · next hlast =>
      obtain ⟨lines, hlines⟩ := List.getLast?_eq_some_iff.1 (eq_of_beq hlast)
      have hblank : (Text.trim []).isEmpty := by decide +kernel
      rw [hlines, List.dropLast_concat, visits_append, visits, if_pos hblank, visits,
        List.append_nil]
  · rfl

/-- **What a run leaves.**  If no line is too long, the run ends regularly, with the table that the
last line that is visited leaves, and it has written what the lines write. -/
theorem runLines_visits {lines : List Bytes} (hlines : ∀ line ∈ lines, line.length < lineLimit)
    (s : Session) (number : Nat) :
    s.runLines false number lines = (s.afterVisits (s.visits number lines), none) ∧
      (s.runLines false number lines).1.output =
        ((s.visits number lines).flatMap Visit.written).foldl Output.write s.output := by
  have hrun := (runLines_eq hlines s number).1
  refine ⟨hrun, ?_⟩
  rw [hrun]
  clear hrun hlines
  show (s.afterVisits (s.visits number lines)).output = _
  induction lines generalizing s number with
  | nil => rfl
  | cons line lines ih =>
      rw [visits]
      split
      · exact ih s (number + 1)
      · rw [List.flatMap_cons, List.foldl_append, ← runLine_output ⟨s, number, Text.trim line⟩]
        exact ih _ (number + 1)

/-- **What the run of a program leaves**, if none of its lines is too long: it also counts one error
for every complaint. -/
theorem run_visits {text : Bytes} (htext : ∀ line ∈ programLines text, line.length < lineLimit)
    (s : Session) :
    let vs := s.announce.visits 1 (programLines text)
    s.run text false = (s.announce.afterVisits vs, none) ∧
      (s.run text false).1.errors =
        s.errors + (vs.flatMap fun v => v.step.diagnostic?.toList).length ∧
      (s.run text false).1.output = (vs.flatMap Visit.written).foldl Output.write s.output := by
  intro vs
  obtain ⟨hrun, houtput⟩ := runLines_visits htext s.announce 1
  have herrors := (runLines_eq htext s.announce 1).2
  rw [output_announce] at houtput
  rw [s.announce_keeps.errors] at herrors
  exact ⟨hrun, herrors, houtput⟩

end Session

end LineCalc
