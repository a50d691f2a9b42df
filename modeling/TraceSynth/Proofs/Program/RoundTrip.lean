import TraceSynth.Program.Parse
import TraceSynth.Program.Print

/-!
# Reading printed programs back

`Program.toText` is meant to be read back by `Program.parse` into an equal program. Two corners
of the printer break that.

An argument slot with a constant whole index writes the index as a machine integer, and an
index at or above `2^63` (infinity included) converts to the least 64-bit integer: every such
slot prints as `arg-9223372036854775808`, whatever its index, and that text reads back as the
variable `arg` minus a number.

A field named `apply` is written with a dot, and the reader takes `.apply` followed by `(` as the
start of a call even when the parenthesis opens the next line's statement.

## Main results

* `Expr.write_large_slot`: every argument slot at a whole index `≥ 2^63` prints alike;
* `print_parse_not_inverse`: one program of each kind whose text does not read back to it.
-/

namespace TraceSynth

namespace Expr

theorem wholeToInt_of_large {n : Float} (h : ¬ n < 9223372036854775808.0) :
    wholeToInt n = -9223372036854775808 := by
  simp [wholeToInt, h]

theorem argIndex?_large {n : Float} (hw : Binary64.isWhole n = true) (hneg : ¬ n < 0)
    (h : ¬ n < 9223372036854775808.0) :
    (Expr.argument (.const (.number n))).argIndex? = some (-9223372036854775808) := by
  simp [argIndex?, hw, hneg, wholeToInt_of_large h]

/-- An argument slot at a whole index of `2^63` or more prints as the same text, the index
being replaced by the least 64-bit integer. -/
theorem write_large_slot {n : Float} (hw : Binary64.isWhole n = true) (hneg : ¬ n < 0)
    (h : ¬ n < 9223372036854775808.0) (top : Bool) :
    (Expr.argument (.const (.number n))).write top = "arg-9223372036854775808" := by
  simp only [write, argIndex?_large hw hneg h]
  decide

end Expr

/-- A computation whose result, mapped, is `some b` succeeded with a result mapped to `b`. -/
theorem Except.exists_of_toOption_map {ε α β : Type} {x : Except ε α} {f : α → β} {b : β}
    (h : x.toOption.map f = some b) : ∃ a, x = .ok a ∧ f a = b := by
  rcases x with e | a
  · simp [Except.toOption] at h
  · exact ⟨a, rfl, by simpa [Except.toOption] using h⟩

namespace Program

/-- Neither corner reads back: `return arguments[2^63]` prints as `return arg-9223372036854775808`,
which reads as a subtraction from a variable, and `x = arg0.apply` followed by
`(arg0 + 1).y = 2` prints as two lines that read as one malformed call. -/
theorem print_parse_not_inverse :
    (∃ q, parse ({ body := .seq [.ret (.argument (.const (.number 9223372036854775808.0)))] } :
        Program).toText = .ok q ∧
      q.equiv { body := .seq [.ret (.argument (.const (.number 9223372036854775808.0)))] } =
        false) ∧
    (parse ({ body := .seq [
        .assign (.var "x") (some (.field (Expr.arg 0) (.const (.str "apply")))) false,
        .assign (.field (.binary .add (Expr.arg 0) (.const (.number 1))) (.const (.str "y")))
          (some (.const (.number 2))) false] } : Program).toText).toBool = false := by
  constructor
  · have hread : ((parse ({ body := .seq [.ret (.argument (.const (.number
          9223372036854775808.0)))] } : Program).toText).toOption.map fun q =>
        q.equiv { body := .seq [.ret (.argument (.const (.number 9223372036854775808.0)))] }) =
        some false := by decide +kernel
    exact Except.exists_of_toOption_map hread
  · decide +kernel

end Program

end TraceSynth
