import LineCalc.Proofs.Session.Output
/-!
# Lines that leave no trace

A print line, or a line that is complained about, leaves the table as it is, so a blank line can
stand in its place.

* `Visit.table_of_fleeting` : such a line leaves no trace in the table;
* `Session.visits_replaced` : the other lines are visited as before;
* `Session.run_without_fleeting_lines` : a run ends with the same table, and its other lines write
  the same.
-/
namespace LineCalc

/-! ## Programs with other lines -/

/-- Lines, numbered from `number` on, with other lines in place of some. -/
def replaced (other? : Nat → Option Bytes) (number : Nat) (lines : List Bytes) : List Bytes :=
  (lines.zipIdx number).map fun p => (other? p.2).getD p.1

/-- A program with other lines in place of some, which are counted from one. -/
def replaceLines (other? : Nat → Option Bytes) (text : Bytes) : Bytes :=
  [0x0a].intercalate (replaced other? 1 (Bytes.splitAt 0x0a text))

/-- What holds of the lines and of those put in their places, holds of all lines then. -/
theorem forall_mem_replaced {other? : Nat → Option Bytes} {p : Bytes → Prop} {lines : List Bytes}
    {number : Nat} (hlines : ∀ line ∈ lines, p line) (hother : ∀ i l, other? i = some l → p l) :
    ∀ line ∈ replaced other? number lines, p line := by
  intro line hline
  obtain ⟨⟨l, i⟩, hl, rfl⟩ := List.mem_map.1 hline
  show p ((other? i).getD l)
  cases hi : other? i with
  | none => exact hlines l (List.fst_mem_of_mem_zipIdx hl)
  | some l' => exact hother i l' hi

/-- The lines of a program with other lines in place of some. -/
theorem splitAt_replaceLines {other? : Nat → Option Bytes}
    (hother : ∀ i l, other? i = some l → IsBlankLine l) (text : Bytes) :
    Bytes.splitAt 0x0a (replaceLines other? text) =
      replaced other? 1 (Bytes.splitAt 0x0a text) := by
  obtain ⟨p, ps, hsplit⟩ := Bytes.exists_splitAt_eq_cons 0x0a text
  refine Bytes.splitAt_intercalate (by simp [replaced, hsplit]) ?_
  exact forall_mem_replaced (Bytes.ne_of_mem_splitAt 0x0a text)
    fun i l hl => (hother i l hl).ne_break

/-! ## Lines without a trace -/

/-- The line is a print line, or there is a complaint about it. -/
def Visit.IsFleeting (v : Visit) : Prop :=
  LineKind.ofLine v.line = .print ∨ v.step.diagnostic? ≠ none

/-- **Print lines and lines with a complaint leave the table as it is.** -/
theorem Visit.table_of_fleeting {v : Visit} (h : v.IsFleeting) :
    v.step.table = v.session.table := by
  obtain ⟨o, ho⟩ := Step.exists_ends v.session.options.lenient v.session.table v.number v.line
  cases o with
  | stored =>
      -- only such a line changes the table, and it neither prints nor is complained about
      obtain ⟨hkind, -, hnone, -⟩ := ho
      rcases h with h | h
      · exact absurd ((Step.kind_ofLine _ _ _ _).trans h) hkind
      · exact absurd hnone h
  | refused => exact ho.2.2.2
  | failed => exact ho.2.2.2
  | shown => exact ho.2.2.2

namespace Session

/-- A line writes the same on sessions with the same table and options, and leaves such sessions. -/
theorem runLine_congr {s s' : Session} (htable : s'.table = s.table)
    (hoptions : s'.options = s.options) (number : Nat) (line : Bytes) :
    Visit.written ⟨s', number, line⟩ = Visit.written ⟨s, number, line⟩ ∧
      (s'.runLine number line).table = (s.runLine number line).table ∧
      (s'.runLine number line).options = (s.runLine number line).options := by
  have hstep : Visit.step ⟨s', number, line⟩ = Visit.step ⟨s, number, line⟩ := by
    simp only [Visit.step, htable, hoptions]
  obtain ⟨htable₁, hoptions₁, -⟩ := runLine_spec s number line
  obtain ⟨htable₂, hoptions₂, -⟩ := runLine_spec s' number line
  refine ⟨?_, ?_, ?_⟩
  · simp only [Visit.written, hstep, paint, hoptions]
  · rw [htable₁, htable₂, htable, hoptions]
  · rw [hoptions₁, hoptions₂, hoptions]

/-- **Lines that leave no trace can be replaced by blank ones.**  If each of the lines replaced is
such a line, all others are visited with the same table and write the same. -/
theorem visits_replaced {other? : Nat → Option Bytes}
    (hother : ∀ i l, other? i = some l → IsBlankLine l) (lines : List Bytes) :
    ∀ (s s' : Session) (number : Nat), s'.table = s.table → s'.options = s.options →
      (∀ v ∈ s.visits number lines, (other? v.number).isSome → v.IsFleeting) →
      (s'.visits number (replaced other? number lines)).map (fun v => (v.number, v.written)) =
          ((s.visits number lines).filter fun v => (other? v.number).isNone).map
            (fun v => (v.number, v.written)) ∧
        (s'.afterVisits (s'.visits number (replaced other? number lines))).table =
          (s.afterVisits (s.visits number lines)).table := by
  induction lines with
  | nil => exact fun s s' number htable _ _ => ⟨rfl, htable⟩
  | cons line lines ih =>
      intro s s' number htable hoptions hfleeting
      have hcons : replaced other? number (line :: lines) =
          (other? number).getD line :: replaced other? (number + 1) lines := rfl
      rw [hcons, visits, visits]
      rw [visits] at hfleeting
      cases hnumber : other? number with
      | none =>
          rw [Option.getD_none]
          split
          · next hblank =>
              rw [if_pos hblank] at hfleeting
              exact ih s s' (number + 1) htable hoptions hfleeting
          · next hline =>
              rw [if_neg hline] at hfleeting
              obtain ⟨hwritten, htable, hoptions⟩ :=
                runLine_congr htable hoptions number (Text.trim line)
              obtain ⟨hrest, hend⟩ :=
                ih _ _ (number + 1) htable hoptions (List.forall_mem_cons.1 hfleeting).2
              rw [List.filter_cons_of_pos (by simp [hnumber]), List.map_cons, List.map_cons, hrest,
                hwritten]
              exact ⟨rfl, hend⟩
      | some l =>
          -- the new line is passed over, and the old one left nothing behind
          have hblank : (Text.trim l).isEmpty := by rw [(hother number l hnumber).trim_eq]; rfl
          rw [Option.getD_some, if_pos hblank]
          split
          · next hblank =>
              rw [if_pos hblank] at hfleeting
              exact ih s s' (number + 1) htable hoptions hfleeting
          · next hline =>
              rw [if_neg hline] at hfleeting
              obtain ⟨hhead, hrest⟩ := List.forall_mem_cons.1 hfleeting
              have hkept := Visit.table_of_fleeting (hhead (by rw [hnumber]; rfl))
              obtain ⟨htable₁, hoptions₁, -⟩ := runLine_spec s number (Text.trim line)
              rw [List.filter_cons_of_neg (by simp [hnumber])]
              exact ih (s.runLine number (Text.trim line)) s' (number + 1)
                (by rw [htable₁, htable]; exact hkept.symm) (by rw [hoptions₁, hoptions]) hrest

/-- **Print lines and lines with a complaint leave no trace.**  Let no line of a program be too
long, and let some of its lines, each a print line or one with a complaint when the program was run,
be replaced by blank ones.  On a session with the same table and the same options, the new program
ends with the same table, and each of the other lines writes the same.  The output of either run is
what its lines write, one behind the other. -/
theorem run_without_fleeting_lines {s s' : Session} (htable : s'.table = s.table)
    (hoptions : s'.options = s.options) {text : Bytes}
    (hshort : ∀ line ∈ programLines text, line.length < lineLimit)
    {other? : Nat → Option Bytes} (hother : ∀ i l, other? i = some l → IsBlankLine l)
    (hfleeting : ∀ v ∈ s.announce.visits 1 (programLines text), (other? v.number).isSome →
      LineKind.ofLine v.line = .print ∨ v.step.diagnostic? ≠ none) :
    let text' := replaceLines other? text
    let before := s.announce.visits 1 (programLines text)
    let after := s'.announce.visits 1 (programLines text')
    ((s.run text false).2 = none ∧ (s'.run text' false).2 = none) ∧
    (s'.run text' false).1.table = (s.run text false).1.table ∧
    after.map (fun v => (v.number, v.written)) =
      (before.filter fun v => (other? v.number).isNone).map (fun v => (v.number, v.written)) ∧
    (s.run text false).1.output = (before.flatMap Visit.written).foldl Output.write s.output ∧
    (s'.run text' false).1.output =
      (after.flatMap Visit.written).foldl Output.write s'.output := by
  intro text' before after
  have hshort' : ∀ line ∈ programLines text', line.length < lineLimit := by
    rw [length_lt_of_programLines, splitAt_replaceLines hother]
    exact forall_mem_replaced (length_lt_of_programLines.1 hshort)
      fun i l hl => (hother i l hl).length_lt
  obtain ⟨hrun, -, houtput⟩ := run_visits hshort s
  obtain ⟨hrun', -, houtput'⟩ := run_visits hshort' s'
  have hreplaced : after = s'.announce.visits 1 (replaced other? 1 (Bytes.splitAt 0x0a text)) := by
    simp only [after, visits_programLines, text', splitAt_replaceLines hother]
  have hbefore : before = s.announce.visits 1 (Bytes.splitAt 0x0a text) :=
    visits_programLines s.announce 1 text
  obtain ⟨hwritten, hend⟩ := visits_replaced hother (Bytes.splitAt 0x0a text) s.announce s'.announce
    1 (by rw [s.announce_keeps.table, s'.announce_keeps.table, htable])
    (by rw [s.announce_keeps.options, s'.announce_keeps.options, hoptions])
    (by rw [← hbefore]; exact hfleeting)
  rw [← hreplaced, ← hbefore] at hwritten hend
  refine ⟨⟨congrArg Prod.snd hrun, congrArg Prod.snd hrun'⟩, ?_, hwritten, houtput, houtput'⟩
  rw [hrun, hrun']
  exact hend

/-- Of the program `int x;`, `print(x);` and `x = y;`, only the first line leaves a trace. -/
theorem run_without_fleeting_lines_three :
    let s := Session.start ⟨false, .none, false, [], false⟩ [] none (.empty [])
    let text := utf8 "int x;\nprint(x);\nx = y;"
    let other? : Nat → Option Bytes :=
      fun i => if i = 2 then some (utf8 " ") else if i = 3 then some [] else none
    replaceLines other? text = utf8 "int x;\n \n" ∧
    (∀ line ∈ programLines text, line.length < lineLimit) ∧
    (∀ i l, other? i = some l → IsBlankLine l) ∧
    (∀ v ∈ s.announce.visits 1 (programLines text), (other? v.number).isSome →
      LineKind.ofLine v.line = .print ∨ v.step.diagnostic? ≠ none) ∧
    (s.run (utf8 "int x;\n \n") false).1.table = (s.run text false).1.table := by
  intro s text other?
  have htext : replaceLines other? text = utf8 "int x;\n \n" := by decide
  have hlines : programLines text = [utf8 "int x;", utf8 "print(x);", utf8 "x = y;"] := by decide
  have hshort : ∀ line ∈ programLines text, line.length < lineLimit := by
    rw [hlines]
    decide
  have hother : ∀ i l, other? i = some l → IsBlankLine l := by
    intro i l hl
    simp only [other?] at hl
    split at hl
    · cases hl
      exact ⟨by decide +kernel, by decide, by decide⟩
    · split at hl
      · cases hl
        exact ⟨by decide +kernel, by decide, by decide⟩
      · cases hl
  have hfleeting : ∀ v ∈ s.announce.visits 1 (programLines text), (other? v.number).isSome →
      LineKind.ofLine v.line = .print ∨ v.step.diagnostic? ≠ none := by
    have hfirst : Text.trim (utf8 "int x;") = utf8 "int x;" := by decide +kernel
    have hsecond : Text.trim (utf8 "print(x);") = utf8 "print(x);" := by decide +kernel
    have hthird : Text.trim (utf8 "x = y;") = utf8 "x = y;" := by decide +kernel
    rw [hlines, visits, hfirst, if_neg (by decide), visits, hsecond, if_neg (by decide), visits,
      hthird, if_neg (by decide), visits]
    refine List.forall_mem_cons.2 ⟨?_, List.forall_mem_cons.2 ⟨?_, List.forall_mem_singleton.2 ?_⟩⟩
    · exact fun h => absurd h (by decide)
    · exact fun _ => .inl (by decide)
    · exact fun _ => .inr (by decide +kernel)
  refine ⟨htext, hshort, hother, hfleeting, ?_⟩
  rw [← htext]
  exact (run_without_fleeting_lines (rfl : s.table = s.table) rfl hshort hother hfleeting).2.1

end Session

end LineCalc
