/-
Lists that keep each of their entries once, where it is first.
-/
import Mathlib.Data.List.Induction
import Mathlib.Data.List.Nodup

namespace Powerline

variable {α : Type} [BEq α] [LawfulBEq α]

theorem eraseDups_concat (xs : List α) (x : α) [Decidable (x ∈ xs)] :
    (xs ++ [x]).eraseDups = if x ∈ xs then xs.eraseDups else xs.eraseDups ++ [x] := by
  rw [List.eraseDups_append]
  split
  · next hmem => simp [List.removeAll, hmem]
  · next hmem => simp [List.removeAll, hmem, List.eraseDups_cons]

theorem nodup_eraseDups (xs : List α) : xs.eraseDups.Nodup := by
  classical
  induction xs using List.reverseRecOn with
  | nil => exact List.nodup_nil
  | append_singleton xs x ih =>
    rw [eraseDups_concat]
    split
    · exact ih
    · next hmem =>
      have hnew : x ∉ xs.eraseDups := fun hm => hmem (List.mem_eraseDups.1 hm)
      rw [← List.concat_eq_append]
      exact ih.concat hnew

end Powerline
