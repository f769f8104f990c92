import LineCalc.Session.Run
import Mathlib.Order.Lattice
/-!
# The lines of a program

A program that goes on with some white space, a line and a line break has the lines of that white
space, the line, and then the lines of what comes after.

* `Bytes.splitAt_append_cons`, `Bytes.splitAt_intercalate`, `Bytes.exists_splitAt_append` :
  splitting at a separator;
* `length_lt_of_programLines` : lines that are not too long;
* `programLines_append`, `splitAt_append_of_ended` : the lines of a program that goes on.
-/
namespace LineCalc

/-! ## Splitting -/

namespace Bytes

/-- A separator ends a part. -/
theorem splitAt_cons_self (sep : UInt8) (s : Bytes) :
    splitAt sep (sep :: s) = [] :: splitAt sep s := by
  rw [splitAt, List.foldr_cons, if_pos (beq_self_eq_true sep)]
  rfl

/-- There is always a part. -/
theorem exists_splitAt_eq_cons (sep : UInt8) (s : Bytes) : ∃ p ps, splitAt sep s = p :: ps := by
  induction s with
  | nil => exact ⟨[], [], rfl⟩
  | cons b s ih =>
      obtain ⟨p, ps, hs⟩ := ih
      by_cases hb : b = sep
      · subst hb
        exact ⟨_, _, splitAt_cons_self b s⟩
      · refine ⟨b :: p, ps, ?_⟩
        rw [splitAt, List.foldr_cons, if_neg (by simpa using hb), ← splitAt, hs]

/-- Any other byte goes on the first part. -/
theorem splitAt_cons_of_ne {sep b : UInt8} (hb : b ≠ sep) {s p : Bytes} {ps : List Bytes}
    (hs : splitAt sep s = p :: ps) : splitAt sep (b :: s) = (b :: p) :: ps := by
  rw [splitAt, List.foldr_cons, if_neg (by simpa using hb), ← splitAt, hs]

/-- A separator between two texts separates their parts. -/
theorem splitAt_append_cons (sep : UInt8) (s rest : Bytes) :
    splitAt sep (s ++ sep :: rest) = splitAt sep s ++ splitAt sep rest := by
  induction s with
  | nil => exact splitAt_cons_self sep rest
  | cons b s ih =>
      by_cases hb : b = sep
      · subst hb
        rw [List.cons_append, splitAt_cons_self, splitAt_cons_self, ih, List.cons_append]
      · obtain ⟨p, ps, hs⟩ := exists_splitAt_eq_cons sep s
        rw [hs, List.cons_append] at ih
        rw [List.cons_append, splitAt_cons_of_ne hb ih, splitAt_cons_of_ne hb hs, List.cons_append]

/-- A text without separators is the only part of itself. -/
theorem splitAt_of_forall_ne {sep : UInt8} {l : Bytes} (hl : ∀ b ∈ l, b ≠ sep) :
    splitAt sep l = [l] := by
  induction l with
  | nil => rfl
  | cons b l ih =>
      obtain ⟨hb, hl⟩ := List.forall_mem_cons.1 hl
      exact splitAt_cons_of_ne hb (ih hl)

/-- A text without separators in front of one is a part. -/
theorem splitAt_append {sep : UInt8} {l : Bytes} (hl : ∀ b ∈ l, b ≠ sep) (rest : Bytes) :
    splitAt sep (l ++ sep :: rest) = l :: splitAt sep rest := by
  rw [splitAt_append_cons, splitAt_of_forall_ne hl, List.singleton_append]

/-- Texts without separators that are each ended by one are parts. -/
theorem splitAt_flatMap_append {sep : UInt8} {parts : List Bytes}
    (h : ∀ p ∈ parts, ∀ b ∈ p, b ≠ sep) (rest : Bytes) :
    splitAt sep (parts.flatMap (· ++ [sep]) ++ rest) = parts ++ splitAt sep rest := by
  induction parts with
  | nil => rfl
  | cons p parts ih =>
      obtain ⟨hp, hparts⟩ := List.forall_mem_cons.1 h
      rw [List.flatMap_cons, List.append_assoc, List.append_assoc, List.singleton_append,
        splitAt_append hp, ih hparts, List.cons_append]

/-- No part has a separator. -/
theorem ne_of_mem_splitAt (sep : UInt8) (s : Bytes) : ∀ p ∈ splitAt sep s, ∀ b ∈ p, b ≠ sep := by
  induction s with
  | nil => simp [splitAt]
  | cons b s ih =>
      by_cases hb : b = sep
      · subst hb
        rw [splitAt_cons_self]
        exact List.forall_mem_cons.2 ⟨by simp, ih⟩
      · obtain ⟨p, ps, hs⟩ := exists_splitAt_eq_cons sep s
        rw [hs] at ih
        obtain ⟨hp, hps⟩ := List.forall_mem_cons.1 ih
        rw [splitAt_cons_of_ne hb hs]
        exact List.forall_mem_cons.2 ⟨List.forall_mem_cons.2 ⟨hb, hp⟩, hps⟩

/-- Parts that are joined by separators are split into the same parts. -/
theorem splitAt_intercalate {sep : UInt8} {parts : List Bytes} (hne : parts ≠ [])
    (h : ∀ p ∈ parts, ∀ b ∈ p, b ≠ sep) : splitAt sep ([sep].intercalate parts) = parts := by
  induction parts with
  | nil => exact absurd rfl hne
  | cons p parts ih =>
      obtain ⟨hp, hparts⟩ := List.forall_mem_cons.1 h
      cases parts with
      | nil => rw [List.intercalate_singleton, splitAt_of_forall_ne hp]
      | cons q parts =>
          rw [List.intercalate_cons_cons, List.append_assoc, List.singleton_append,
            splitAt_append hp, ih (List.cons_ne_nil q parts) hparts]

/-- The same with some bytes before it, which may hold separators: they make parts of their own, and
what is left of them comes first in the part of the text. -/
theorem exists_splitAt_append {sep : UInt8} {l : Bytes} (hl : ∀ b ∈ l, b ≠ sep) (rest ws : Bytes) :
    ∃ (parts : List Bytes) (before : Bytes), (∀ p ∈ parts, p.Sublist ws) ∧ before.Sublist ws ∧
      splitAt sep (ws ++ (l ++ sep :: rest)) = parts ++ (before ++ l) :: splitAt sep rest := by
  induction ws with
  | nil => exact ⟨[], [], by simp, .slnil, splitAt_append hl rest⟩
  | cons b ws ih =>
      obtain ⟨parts, before, hparts, hbefore, hsplit⟩ := ih
      have hcons : ∀ p ∈ parts, p.Sublist (b :: ws) := fun p hp => (hparts p hp).cons b
      by_cases hb : b = sep
      · subst hb
        refine ⟨[] :: parts, before, ?_, hbefore.cons b, ?_⟩
        · exact List.forall_mem_cons.2 ⟨List.nil_sublist _, hcons⟩
        · rw [List.cons_append, splitAt_cons_self, hsplit, List.cons_append]
      · cases parts with
        | nil =>
            refine ⟨[], b :: before, by simp, hbefore.cons_cons b, ?_⟩
            exact splitAt_cons_of_ne hb hsplit
        | cons p ps =>
            obtain ⟨hp, hps⟩ := List.forall_mem_cons.1 hparts
            refine ⟨(b :: p) :: ps, before, ?_, hbefore.cons b, ?_⟩
            · exact List.forall_mem_cons.2 ⟨hp.cons_cons b, fun q hq => (hps q hq).cons b⟩
            · exact splitAt_cons_of_ne hb hsplit

end Bytes

/-! ## Programs -/

/-- A line that a run passes over. -/
structure IsBlankLine (line : Bytes) : Prop where
  trim_eq : Text.trim line = []
  ne_break : ∀ b ∈ line, b ≠ 0x0a
  length_lt : line.length < lineLimit

/-- The lines of a program are short if those between its line breaks are, and the other way
round. -/
theorem length_lt_of_programLines {text : Bytes} :
    (∀ line ∈ programLines text, line.length < lineLimit) ↔
      ∀ line ∈ Bytes.splitAt 0x0a text, line.length < lineLimit := by
  simp only [programLines]
  split
  · next hlast =>
      obtain ⟨lines, hlines⟩ := List.getLast?_eq_some_iff.1 (eq_of_beq hlast)
      have hempty : ([] : Bytes).length < lineLimit := by decide
      rw [hlines, List.dropLast_concat]
      simp only [List.forall_mem_append, List.forall_mem_singleton, hempty, and_true]
  · rfl

/-- The lines of a program that starts with white space, a line and a line break. -/
theorem programLines_append {l : Bytes} (hl : ∀ b ∈ l, b ≠ 0x0a) (ws rest : Bytes) :
    ∃ (parts : List Bytes) (before : Bytes), (∀ p ∈ parts, p.Sublist ws) ∧ before.Sublist ws ∧
      programLines (ws ++ (l ++ 0x0a :: rest)) = parts ++ (before ++ l) :: programLines rest := by
  obtain ⟨parts, before, hparts, hbefore, hsplit⟩ := Bytes.exists_splitAt_append hl rest ws
  refine ⟨parts, before, hparts, hbefore, ?_⟩
  obtain ⟨p, ps, hrest⟩ := Bytes.exists_splitAt_eq_cons 0x0a rest
  have hjoin : parts ++ (before ++ l) :: (p :: ps) = (parts ++ [before ++ l]) ++ (p :: ps) := by
    simp
  have hlast : (parts ++ [before ++ l] ++ p :: ps).getLast? = (p :: ps).getLast? := by
    rw [List.getLast?_append, List.getLast?_eq_some_getLast (List.cons_ne_nil p ps)]
    rfl
  have hdrop : (parts ++ [before ++ l] ++ p :: ps).dropLast =
      parts ++ [before ++ l] ++ (p :: ps).dropLast :=
    List.dropLast_append_cons
  simp only [programLines, hsplit, hrest, hjoin, hlast, hdrop]
  split
  · simp
  · simp

/-- A program that is empty or ends with a line break has its lines before those of what follows. -/
theorem splitAt_append_of_ended {text : Bytes} (h : text = [] ∨ text.getLast? = some 0x0a)
    (rest : Bytes) :
    Bytes.splitAt 0x0a (text ++ rest) = programLines text ++ Bytes.splitAt 0x0a rest := by
  rcases h with rfl | h
  · rfl
  · obtain ⟨body, rfl⟩ := List.getLast?_eq_some_iff.1 h
    have hlines : programLines (body ++ [0x0a]) = Bytes.splitAt 0x0a body := by
      have hsplit : Bytes.splitAt 0x0a (body ++ [0x0a]) = Bytes.splitAt 0x0a body ++ [[]] :=
        Bytes.splitAt_append_cons 0x0a body []
      rw [programLines, hsplit, List.getLast?_concat, List.dropLast_concat]
      exact if_pos (beq_self_eq_true _)
    rw [hlines, List.append_assoc, List.singleton_append, Bytes.splitAt_append_cons]

end LineCalc
