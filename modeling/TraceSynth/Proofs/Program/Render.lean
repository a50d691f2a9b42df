import TraceSynth.Proofs.Program.Layout
import TraceSynth.Proofs.Text.Unquote

/-!
# Printed text as rendered segments

`Expr.segs` and `Stmt.layout` cut the printer's output into blanks and tokens. This module proves
that the cut loses nothing: an expression's segments render to its text (`Expr.render_segs`),
the lines of a statement's layout render to the lines the printer writes
(`Stmt.lines_eq_layout`), and a statement's text is its layout's lines joined by line breaks
(`Stmt.toText_eq_layout`). The reader's side of the round trip then works on the segments
alone.
-/

namespace TraceSynth

namespace Utf8

/-- The encoding of characters decodes to those characters. -/
theorem pieces_charBytes (l : List Char) : pieces (Quoted.charBytes l) = l.map Piece.char := by
  induction l with
  | nil => simp [Quoted.charBytes_nil, pieces]
  | cons c l ih =>
    obtain ⟨b0, tail, he, hd⟩ := decodeFirst_encode c (Quoted.charBytes l)
    rw [Quoted.charBytes_cons, he, List.cons_append, pieces, hd]
    simp [ih]

end Utf8

namespace Bytes

/-- A text's bytes read back as the text. -/
@[simp] theorem toStringLossy_ofString (s : String) : (Bytes.ofString s).toStringLossy = s := by
  have hb : Bytes.ofString s = ⟨Quoted.charBytes s.toList⟩ := rfl
  simp [toStringLossy, chars, pieces, hb, Utf8.pieces_charBytes, Function.comp_def]

end Bytes

namespace Seg

@[simp] theorem render_nil : render [] = "" := rfl

@[simp] theorem render_cons (s : Seg) (ss : List Seg) : render (s :: ss) = s.text ++ render ss := by
  simp [render]

@[simp] theorem render_append (a b : List Seg) : render (a ++ b) = render a ++ render b := by
  simp [render]

@[simp] theorem text_sym (c : Char) : (sym c).text = c.toString := rfl

@[simp] theorem text_word (s : String) : (word s).text = s := rfl

@[simp] theorem text_space : space.text = " " := rfl

@[simp] theorem text_blank (s : String) : (blank s).text = s := rfl

@[simp] theorem text_tok (k : Program.TokenKind) (s : String) : (tok k s).text = s := rfl

end Seg

namespace Value

theorem render_atomSeg (s : String) : (atomSeg s).text = s := by
  unfold atomSeg
  split <;> rfl

/-- A number's tokens, the sign split off, spell its text. -/
theorem render_numberSegs (s : String) : Seg.render (numberSegs s) = s := by
  unfold numberSegs
  split
  case h_1 rest h =>
    have hs := congrArg String.ofList h
    simp only [String.ofList_toList] at hs
    simp [render_atomSeg, hs]
  case h_2 => simp [render_atomSeg]

/-- A literal's tokens spell its text. -/
theorem render_segs (v : Value) : Seg.render v.segs = v.render := by
  cases v with
  | number n => simp [segs, render, toBytes, render_numberSegs]
  | string s => simp [segs, render]
  | ref id => simp [segs, render]
  | bool b => cases b <;> simp [segs, render, toBytes]
  | undefined | null => simp [segs, render, toBytes]

end Value

namespace Expr

/-- An expression's segments spell its text. -/
theorem render_segs (e : Expr) (top : Bool) : Seg.render (e.segs top) = e.write top := by
  induction e generalizing top with
  | const v => simp [segs, write, Value.render_segs]
  | var name => simp [segs, write]
  | alloc array => cases array <;> rfl
  | argument index ih =>
    rw [← String.toList_inj]
    cases h : (Expr.argument index).argIndex? <;> simp [segs, write, h, Seg.bracket, ih]
  | field obj name iho ihn =>
    have ho : Seg.render obj.operandSegs = obj.operand := by
      unfold operandSegs operand
      split <;> simp [Seg.paren, iho, String.append_assoc]
    rw [segs_field, Seg.render_append, ho]
    -- the name is read with a dot exactly when it is a string constant that is an identifier
    rcases name with _ | _ | _ | ⟨_ | _ | _ | _ | s | _⟩ | _ | _ | _
    case const.string =>
      by_cases hs : isIdentifier s <;>
        simp [write, operand, accessSegs, hs, Seg.bracket, ihn, String.append_assoc]
    all_goals simp [write, operand, accessSegs, Seg.bracket, ihn, String.append_assoc]
  | binary op a b iha ihb =>
    have htop : Seg.render ((Expr.binary op a b).segs true) = (Expr.binary op a b).write true := by
      rw [← String.toList_inj]
      cases op
      · rw [segs_add]
        -- a negative number added is written as a subtraction of its magnitude
        rcases b with _ | _ | _ | ⟨_ | _ | _ | n | _ | _⟩ | _ | _ | _
        case const.number =>
          by_cases hn : n < 0 <;> simp [write, addendSegs, hn, iha, ihb, Value.render_numberSegs]
        all_goals simp [write, addendSegs, iha, ihb, BinaryOp.symbol]
      · rw [segs_eq]
        simp [write, iha, ihb, BinaryOp.symbol]
    cases top
    · have hw : (Expr.binary op a b).write false = "(" ++ (Expr.binary op a b).write true ++ ")" :=
        rfl
      rw [segs_binary_inner, hw, ← htop]
      simp [Seg.paren, String.append_assoc]
    · exact htop
  | not inner ih => simp [segs, write, ih]

/-- An operand's segments spell its text. -/
theorem render_operandSegs (e : Expr) : Seg.render e.operandSegs = e.operand := by
  unfold operandSegs operand
  split <;> simp [Seg.paren, render_segs, String.append_assoc]

end Expr

namespace Stmt

/-- A call's arguments are written separated by commas. -/
theorem render_argSegs : ∀ args : List Expr,
    Seg.render (argSegs args) = ", ".intercalate (args.map Expr.toText)
  | [] => rfl
  | [a] => by simp [argSegs, Expr.toText, Expr.render_segs]
  | a :: b :: rest => by
    have ih := render_argSegs (b :: rest)
    simp only [argSegs, List.map_cons] at ih ⊢
    rw [List.intercalate_cons_cons, String.intercalate_cons_cons, ← String.toList_inj]
    simp [ih, Expr.toText, Expr.render_segs]

mutual

/-- Each line the printer writes renders the matching line of the layout. -/
theorem lines_eq_layout (indent : String) (s : Stmt) :
    s.lines indent = (s.layout indent).map Seg.render := by
  -- the lines are compared character by character
  rw [← List.map_inj_right fun x y h => String.toList_inj.1 h]
  cases s with
  | seq ss => rw [lines, layout, linesList_eq_layout indent ss]
  | ite c t e =>
    simp [lines, layout, lines_eq_layout (indent ++ "  ") t, lines_eq_layout (indent ++ "  ") e,
      Expr.toText, Expr.render_segs]
  | loop v a b c body =>
    simp [lines, layout, lines_eq_layout (indent ++ "  ") body, Expr.toText, Expr.render_segs]
  | assign lhs rhs decl =>
    cases rhs <;> cases decl <;> simp [lines, layout, Expr.toText, Expr.render_segs]
  | call res target args recv decl =>
    cases recv <;> cases decl <;>
      simp [lines, layout, Expr.toText, Expr.render_segs, Expr.render_operandSegs, render_argSegs]
  | _ => simp [lines, layout, Expr.toText, Expr.render_segs]

theorem linesList_eq_layout (indent : String) (ss : List Stmt) :
    linesList indent ss = (layoutList indent ss).map Seg.render := by
  cases ss with
  | nil => rfl
  | cons s rest =>
    rw [linesList, layoutList, List.map_append, lines_eq_layout indent s,
      linesList_eq_layout indent rest]

end

/-- A statement's text is its layout's lines, rendered and joined by line breaks. -/
theorem toText_eq_layout (s : Stmt) : s.toText = "\n".intercalate ((s.layout "").map Seg.render) := by
  rw [toText, lines_eq_layout]

end Stmt

end TraceSynth
