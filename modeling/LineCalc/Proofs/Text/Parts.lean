import LineCalc.Text.Bytes
import Mathlib.Data.List.Basic
/-!
# Texts that show their parts

When the parts of a text can be told from the text.

* `map_eq_of_flatMap_eq` : parts in a row, as far as each one is told whatever stands behind it;
* `Bytes.append_cons_inj` : a part in front of a separator that it does not hold;
* `Bytes.label_append_inj` : a label, if none of the labels goes on another one.
-/
namespace LineCalc

/-- Parts in a row are told as far as each of them is told by its text, whatever stands behind
it. -/
theorem map_eq_of_flatMap_eq {α β γ : Type} {text : α → List β} {key : α → γ} {P : α → Prop}
    (hne : ∀ a, P a → text a ≠ [])
    (htext : ∀ a a' r r', P a → P a' → text a ++ r = text a' ++ r' → key a = key a' ∧ r = r')
    {l l' : List α} (hl : ∀ a ∈ l, P a) (hl' : ∀ a ∈ l', P a)
    (h : l.flatMap text = l'.flatMap text) : l.map key = l'.map key := by
  induction l generalizing l' with
  | nil =>
      cases l' with
      | nil => rfl
      | cons a' l' =>
          obtain ⟨ha', -⟩ := List.append_eq_nil_iff.1 h.symm
          exact absurd ha' (hne a' (hl' a' List.mem_cons_self))
  | cons a l ih =>
      cases l' with
      | nil =>
          obtain ⟨ha, -⟩ := List.append_eq_nil_iff.1 h
          exact absurd ha (hne a (hl a List.mem_cons_self))
      | cons a' l' =>
          obtain ⟨ha, hl⟩ := List.forall_mem_cons.1 hl
          obtain ⟨ha', hl'⟩ := List.forall_mem_cons.1 hl'
          rw [List.flatMap_cons, List.flatMap_cons] at h
          obtain ⟨hkey, hrest⟩ := htext a a' _ _ ha ha' h
          rw [List.map_cons, List.map_cons, hkey, ih hl hl' hrest]

/-- Parts in a row are told if each of them is told by its text, whatever stands behind it. -/
theorem eq_of_flatMap_eq {α β : Type} {text : α → List β} {P : α → Prop}
    (hne : ∀ a, P a → text a ≠ [])
    (htext : ∀ a a' r r', P a → P a' → text a ++ r = text a' ++ r' → a = a')
    {l l' : List α} (hl : ∀ a ∈ l, P a) (hl' : ∀ a ∈ l', P a)
    (h : l.flatMap text = l'.flatMap text) : l = l' := by
  have hmap : l.map id = l'.map id := by
    refine map_eq_of_flatMap_eq hne ?_ hl hl' h
    intro a a' r r' ha ha' heq
    obtain rfl := htext a a' r r' ha ha' heq
    exact ⟨rfl, List.append_cancel_left heq⟩
  rwa [List.map_id, List.map_id] at hmap

namespace Bytes

/-- Texts without the separator in front of it are told from what is behind it. -/
theorem append_cons_inj {sep : UInt8} {x x' z z' : Bytes} (hx : ∀ b ∈ x, b ≠ sep)
    (hx' : ∀ b ∈ x', b ≠ sep) (h : x ++ sep :: z = x' ++ sep :: z') : x = x' ∧ z = z' := by
  have htake : ∀ x z : Bytes, (∀ b ∈ x, b ≠ sep) → (x ++ sep :: z).takeWhile (· != sep) = x := by
    intro x z hx
    rw [List.takeWhile_append_of_pos (by simpa using hx)]
    simp
  have hfront : x = x' := by
    rw [← htake x z hx, h, htake x' z' hx']
  subst hfront
  exact ⟨rfl, List.cons_injective (List.append_cancel_left h)⟩

/-- If no label goes on another one, they are told from what stands behind them. -/
theorem label_append_inj {labels : List Bytes}
    (hlabels : ∀ u ∈ labels, ∀ v ∈ labels, u <+: v → u = v) {u v x y : Bytes}
    (hu : u ∈ labels) (hv : v ∈ labels) (h : u ++ x = v ++ y) : u = v ∧ x = y := by
  have heq : u = v := by
    have hprefix : u <+: v ++ y := ⟨x, h⟩
    rcases List.prefix_or_prefix_of_prefix hprefix (List.prefix_append v y) with hp | hp
    · exact hlabels u hu v hv hp
    · exact (hlabels v hv u hu hp).symm
  subst heq
  exact ⟨rfl, List.append_cancel_left h⟩

end Bytes

end LineCalc
