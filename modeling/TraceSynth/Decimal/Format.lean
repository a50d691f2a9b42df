import TraceSynth.Decimal.Shortest

/-!
# Writing binary64 numbers as text

The shortest digits of a number (`Digits.shortest`) are written either positionally
(`123.45`, `0.0001`) or in exponent form (`1.2345e+06`). A `Style` says which, and how the
exponent looks:

* `Style.general` writes positionally when the first digit's exponent is in `-4 ..= 5`, and
  otherwise gives the exponent a sign and at least two digits (`1e+06`, `1e-07`);
* `Style.json` writes positionally when the magnitude is in `[1e-6, 1e21)`, and otherwise gives
  the exponent a sign and no padding (`1e+21`, `1e-7`).

`fixed` writes a number with a given count of places, rounding the exact binary value, a tie
going to the even last digit.
-/

namespace TraceSynth

namespace Digits

/-- The text of a list of digits. -/
def text (ds : List Nat) : String := String.ofList (ds.map fun d => Char.ofNat (48 + d))

/-- `n` zeros. -/
def zeros (n : Nat) : String := String.ofList (List.replicate n '0')

/-- The digits written positionally: `0.00ddd`, `ddd00` or `dd.ddd`. -/
def positional (d : Digits) : String :=
  let n : Int := d.digits.length
  if d.point ≤ 0 then "0." ++ zeros (-d.point).toNat ++ text d.digits
  else if n ≤ d.point then text d.digits ++ zeros (d.point - n).toNat
  else
    text (d.digits.take d.point.toNat) ++ "." ++ text (d.digits.drop d.point.toNat)

/-- The digits in exponent form, the exponent with a sign and at least `width` digits. -/
def scientific (d : Digits) (width : Nat) : String :=
  let x := d.point - 1
  let mant := match d.digits with
    | [] => "0"
    | [a] => text [a]
    | a :: rest => text [a] ++ "." ++ text rest
  let ds := ofNat x.natAbs
  let ds := List.replicate (width - ds.length) 0 ++ ds
  mant ++ "e" ++ (if x < 0 then "-" else "+") ++ text ds

end Digits

namespace Binary64

/-- How the shortest digits of a finite nonzero number are written. -/
structure Style where
  /-- Whether to write positionally, given the magnitude and the first digit's exponent. -/
  positional : Float → Int → Bool
  /-- The least count of exponent digits in exponent form. -/
  exponentWidth : Nat

/-- Positional for first-digit exponents `-4 ..= 5`; two exponent digits at least. -/
def Style.general : Style := ⟨fun _ x => -4 ≤ x && x < 6, 2⟩

/-- Positional for magnitudes in `[1e-6, 1e21)`; exponent digits unpadded. -/
def Style.json : Style := ⟨fun a _ => !(a < 1e-6) && a < 1e21, 1⟩

/-- The text of a finite number in a style; zero is `0` (or `-0`). -/
def writeFinite (style : Style) (x : Float) : String :=
  match parts x with
  | .finite neg m e =>
    let sign := if neg then "-" else ""
    if m == 0 then sign ++ "0"
    else
      let d := Digits.shortest m e
      let a := if neg then -x else x
      sign ++ (if style.positional a (d.point - 1) then d.positional
        else d.scientific style.exponentWidth)
  | _ => ""

/-- The general shortest text of a number: `NaN`, `+Inf` and `-Inf` for the special values. -/
def general (x : Float) : String :=
  match parts x with
  | .nan => "NaN"
  | .inf neg => if neg then "-Inf" else "+Inf"
  | .finite _ _ _ => writeFinite .general x

/-- The digits of `n / d` rounded to `places` decimal places, a tie to the even last digit. -/
def fixedDigits (n d : Nat) (places : Nat) : String :=
  let q := roundHalfEven (n * 10 ^ places) d
  let ds := Digits.ofNat q
  let ds := List.replicate (places + 1 - ds.length) 0 ++ ds
  let whole := ds.take (ds.length - places)
  let frac := ds.drop (ds.length - places)
  Digits.text whole ++ (if places == 0 then "" else "." ++ Digits.text frac)

/-- A number with `places` decimal places: `NaN`, `+Inf` and `-Inf` for the special values, and
a minus sign on every negative number, negative zero included. -/
def fixed (x : Float) (places : Nat) : String :=
  match parts x with
  | .nan => "NaN"
  | .inf neg => if neg then "-Inf" else "+Inf"
  | .finite neg m e =>
    let (n, d) := scale m 1 e
    (if neg then "-" else "") ++ fixedDigits n d places

end Binary64

end TraceSynth
