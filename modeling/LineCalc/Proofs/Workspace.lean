import LineCalc.Workspace
import Mathlib.Data.List.Basic
/-!
# Where paths lead

A path that leads to a file, or to a free name, leads to the database that is put there.

* `Workspace.foldl_follow_of_stuck` : a path that cannot go on stays where it is;
* `Workspace.locate_putRows` : a path leads to what was put there.
-/
namespace LineCalc.Workspace

/-- No part of a path leads on from here. -/
def IsStuck (place : Place) : Prop := ∀ (w : Workspace) (part : Bytes), w.follow place part = place

/-- What stands in the way of a path, stops it. -/
theorem isStuck_of_follow (place : Place) (h : ∀ parts, place ≠ .directory parts) (w : Workspace)
    (part : Bytes) : IsStuck (w.follow place part) := by
  cases place with
  | directory parts => exact absurd rfl (h parts)
  | file parts c => exact fun _ _ => rfl
  | vacant parts => exact fun _ _ => rfl
  | missing => exact fun _ _ => rfl
  | blocked => exact fun _ _ => rfl
  | tooLong => exact fun _ _ => rfl
  | unnameable => exact fun _ _ => rfl

/-- A path that is stuck stays where it is. -/
theorem foldl_follow_of_stuck {place : Place} (h : IsStuck place) (w : Workspace)
    (rest : List Bytes) : rest.foldl w.follow place = place := by
  induction rest with
  | nil => rfl
  | cons part rest ih => rw [List.foldl_cons, h w part, ih]

/-- The place is a file with these parts, or can become one. -/
def IsSlot (place : Place) (parts : List Bytes) : Prop :=
  place = .vacant parts ∨ ∃ c, place = .file parts c

/-- No path is stuck at a file or a free name. -/
theorem IsSlot.not_stuck {place : Place} {parts : List Bytes} (h : IsSlot place parts) :
    ¬ IsStuck place := by
  intro hstuck
  have hfollow := hstuck (.empty []) []
  rcases h with rfl | ⟨c, rfl⟩
  · cases hfollow
  · cases hfollow

variable {w : Workspace} {parts : List Bytes} {rows : List Row}

/-- What is put somewhere, is found there. -/
theorem lookup_putRows : (w.putRows parts rows).files.lookup parts = some (.database rows) := by
  have hnone : (w.files.filter (·.1 != parts)).lookup parts = none := by
    rw [List.lookup_eq_none_iff]
    intro p hp
    simpa [bne_comm] using (List.mem_filter.1 hp).2
  rw [putRows, List.lookup_append, hnone]
  simp

/-- A place that is no directory holds what is put there. -/
theorem placeAt_putRows {place : List Bytes} (hdirectory : w.isDirectory place = false)
    (h : IsSlot (w.placeAt place) parts) :
    (w.putRows parts rows).placeAt place = .file parts (.database rows) := by
  have hplace : place = parts := by
    unfold placeAt at h
    rw [hdirectory] at h
    cases hlookup : w.files.lookup place with
    | none =>
        simp only [hlookup, Bool.false_eq_true, if_false] at h
        rcases h with h | ⟨c, h⟩
        · cases h
          rfl
        · cases h
    | some c =>
        simp only [hlookup, Bool.false_eq_true, if_false] at h
        rcases h with h | ⟨c, h⟩
        · cases h
        · cases h
          rfl
  subst hplace
  have hstill : (w.putRows place rows).isDirectory place = false := hdirectory
  rw [placeAt, hstill, lookup_putRows]
  rfl

/-- The parts of a path lead from a directory to what is put at its end. -/
theorem foldl_follow_putRows (ps : List Bytes) : ∀ directory : List Bytes,
    IsSlot (ps.foldl w.follow (.directory directory)) parts →
      ps.foldl (w.putRows parts rows).follow (.directory directory) =
        .file parts (.database rows) := by
  induction ps with
  | nil =>
      intro directory h
      rcases h with h | ⟨c, h⟩
      · cases h
      · cases h
  | cons part ps ih =>
      intro directory h
      rw [List.foldl_cons] at h ⊢
      rw [follow] at h ⊢
      split at h
      · -- a name that is too long leads nowhere
        have hstuck : IsStuck .tooLong := fun _ _ => rfl
        rw [foldl_follow_of_stuck hstuck] at h
        exact absurd hstuck h.not_stuck
      · next hshort =>
          rw [if_neg hshort]
          cases hdirectory : w.isDirectory (enter directory part) with
          | true =>
              have hplace : ∀ w' : Workspace, w'.isDirectory (enter directory part) = true →
                  w'.placeAt (enter directory part) = .directory (enter directory part) := by
                intro w' hw'
                rw [placeAt, if_pos hw']
              have hstill : (w.putRows parts rows).isDirectory (enter directory part) = true :=
                hdirectory
              rw [hplace _ hdirectory] at h
              rw [hplace _ hstill]
              exact ih _ h
          | false =>
              -- the path must end here, for it does not go on from a file
              have hne : ∀ d, w.placeAt (enter directory part) ≠ .directory d := by
                intro d
                rw [placeAt, hdirectory]
                cases w.files.lookup (enter directory part) <;> simp
              cases ps with
              | nil => exact placeAt_putRows hdirectory h
              | cons q qs =>
                  have hstuck := isStuck_of_follow _ hne w q
                  rw [List.foldl_cons, foldl_follow_of_stuck hstuck] at h
                  exact absurd hstuck h.not_stuck

/-- **A path leads to what was put there**, if it led to a file or a free name before. -/
theorem locate_putRows {path : Bytes} (h : IsSlot (w.locate path) parts) :
    (w.putRows parts rows).locate path = .file parts (.database rows) := by
  unfold locate at h ⊢
  by_cases hzero : path.contains 0x00
  · rw [if_pos hzero] at h
    exact absurd (fun _ _ => rfl) h.not_stuck
  by_cases hempty : path.isEmpty
  · rw [if_neg hzero, if_pos hempty] at h
    exact absurd (fun _ _ => rfl) h.not_stuck
  by_cases hlong : pathLimit < path.length
  · rw [if_neg hzero, if_neg hempty, if_pos hlong] at h
    exact absurd (fun _ _ => rfl) h.not_stuck
  rw [if_neg hzero, if_neg hempty, if_neg hlong] at h ⊢
  exact foldl_follow_putRows _ _ h

end LineCalc.Workspace
