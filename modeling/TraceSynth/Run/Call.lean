import TraceSynth.Run.Recorder

/-!
# Calling function values

A function value is a heap object holding a native function. Calling anything else is a type
error. A call of a tracked function is an event: its operands are the function, the receiver
(none when nullish) and the arguments; the callee then runs unobserved, and its result, if
tracked, gets the event's variable as an alias. A call of an untracked function just runs it.

Natives call other functions only through `callWith`, which passes a single argument on, so
calls nest at most three deep; `callDepth` leaves room to spare.
-/

namespace TraceSynth

namespace Native

/-- What a native does, given how to call a function value. -/
def run (call : Value → Value → List Value → RecM Value) (f : Native) (this : Value)
    (args : List Value) : RecM Value :=
  let a0 := Value.arg args 0
  let a1 := Value.arg args 1
  match f with
  | .double => pure (Value.add a0 a0)
  | .identity => pure a0
  | .this => pure this
  | .throw => throwThe Fault (.thrown a0)
  | .getLength => Host.getProp a0 (.string lengthKey)
  | .allocate => do
    let o ← Host.allocate false
    Host.setProp o (.str "v") a0
    pure o
  | .setX => do
    Host.setProp a0 (.str "x") (.number 1)
    pure .undefined
  | .typeName => do
    let t ← Host.typeOf a0
    let arr ← Host.isArray a0
    pure (.str (t ++ " " ++ (if arr then "true" else "false")))
  | .callWith => call a0 this [a1]
  | .brokenInvariant => throwThe Fault (.invariant "native invariant")
  | .plainFailure => throwThe Fault (.failure "native failure")
  | .picky =>
    match a0 with
    | .number n =>
      if n == 1 then pure a0 else throwThe Fault (.invariant ("picky native got " ++ a0.render))
    | _ => throwThe Fault (.invariant ("picky native got " ++ a0.render))

end Native

namespace Host

/-- How deep native calls may nest. -/
def callDepth : Nat := 8

/-- Call `fn` with a receiver and arguments. -/
def call : Nat → Value → Value → List Value → RecM Value
  | 0, _, _, _ => throwThe Fault (.invariant "native calls nested too deeply")
  | depth + 1, fn, this, args => do
    let h := (← get).heap
    match h.obj? fn with
    | some { kind := .function f, .. } =>
      if !(← recorded fn) then Native.run (call depth) f this args
      else
        let target ← texpr fn
        let var ← freshVar
        let receiver ← if this.isNullish then pure none else some <$> texpr this
        let argExprs ← args.mapM texpr
        emit (.apply target receiver argExprs var)
        let res ← suspended (Native.run (call depth) f this args)
        if ← recorded res then addCurState res (.var var)
        pure res
    | _ => throwThe Fault (.typeError (fn.toBytes ++ Bytes.ofString " is not a function"))

end Host

end TraceSynth
