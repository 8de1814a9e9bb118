/-
  A STORE OF CELLS, ONE TO A KEY, as a library.

  Every operation reads and overwrites the cell at its own key and nothing else; a cell that was
  never written is `none`.  `log` runs a list of operations and writes down what each one answers.
  The cells do not talk to each other: the answers to some of the operations are those of a run in
  which the others never happened, as soon as no key is shared between the two groups
  (`log_filter`).
-/
import Mathlib.Logic.Function.Basic
import Mathlib.Data.List.Basic

namespace Cells

variable {ι κ σ ο : Type*} [DecidableEq κ] (key : ι → κ) (act : ι → Option σ → ο × σ)

/-- The operations in turn, each with its answer. -/
def log : (κ → Option σ) → List ι → List (ι × ο)
  | _, [] => []
  | cells, op :: ops =>
    (op, (act op (cells (key op))).1) ::
      log (Function.update cells (key op) (some (act op (cells (key op))).2)) ops

variable {key act} {cells cells' : κ → Option σ} {op : ι} {ops : List ι}

theorem log_cons : log key act cells (op :: ops) = (op, (act op (cells (key op))).1) ::
    log key act (Function.update cells (key op) (some (act op (cells (key op))).2)) ops := rfl

/-- What is written down is the answer to the operation, at the cell it found. -/
theorem answer_of_mem_log {e : ι × ο} (h : e ∈ log key act cells ops) :
    ∃ cell, e.2 = (act e.1 cell).1 := by
  induction ops generalizing cells with
  | nil => nomatch h
  | cons op ops ih =>
    rcases List.mem_cons.mp h with rfl | h
    · exact ⟨_, rfl⟩
    · exact ih h

/-- The answers depend on the cells the operations go to. -/
theorem log_congr (h : ∀ op ∈ ops, cells (key op) = cells' (key op)) :
    log key act cells ops = log key act cells' ops := by
  induction ops generalizing cells cells' with
  | nil => rfl
  | cons op ops ih =>
    have hop := h op List.mem_cons_self
    rw [log_cons, log_cons, hop]
    congr 1
    refine ih fun later hlater => ?_
    by_cases hk : key later = key op
    · rw [hk, Function.update_self, Function.update_self]
    · rw [Function.update_of_ne hk, Function.update_of_ne hk, h later (List.mem_cons_of_mem op hlater)]

/-- Operations that share no key with the others are answered as if they were alone. -/
theorem log_filter (keep : ι → Bool)
    (hkeys : ∀ a ∈ ops, ∀ b ∈ ops, keep a = true → keep b = false → key a ≠ key b) :
    (log key act cells ops).filter (fun e => keep e.1) = log key act cells (ops.filter keep) := by
  induction ops generalizing cells with
  | nil => rfl
  | cons op ops ih =>
    have hrest : ∀ a ∈ ops, ∀ b ∈ ops, keep a = true → keep b = false → key a ≠ key b :=
      fun a ha b hb => hkeys a (List.mem_cons_of_mem op ha) b (List.mem_cons_of_mem op hb)
    rw [log_cons]
    cases hop : keep op with
    | true =>
      rw [List.filter_cons_of_pos (by exact hop), List.filter_cons_of_pos hop, log_cons, ih hrest]
    | false =>
      have hne : ¬ keep op = true := by simp [hop]
      rw [List.filter_cons_of_neg (by exact hne), List.filter_cons_of_neg hne, ih hrest]
      -- what was dropped wrote a cell that is not looked at
      refine log_congr fun a ha => ?_
      obtain ⟨hmem, hkeep⟩ := List.mem_filter.mp ha
      exact Function.update_of_ne
        (hkeys a (List.mem_cons_of_mem op hmem) op List.mem_cons_self hkeep hop) _ _

end Cells
