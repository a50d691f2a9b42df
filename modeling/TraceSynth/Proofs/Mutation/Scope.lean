import TraceSynth.Mutation.Generator
import TraceSynth.Proofs.Random.Draws
import Mathlib.Data.List.GetD

/-!
# Which variables a generated expression reads

A generator for a mutation site sees the variables declared before the site
(`Generator.atSite`). Every expression it generates, at any depth and under any requirement,
reads only those variables, except the length of the result, which it reads only when the seed
builds its result in a fresh object (`Expr.Scoped`). The argument follows the generator's own
recursion: an option is offered only when it can be built (a variable only when one is visible,
the result's length only for an allocating seed), and the options that build on other
expressions build on generated ones.

## Main results

* `Generator.exprAt_scoped`: every expression a generator gives is scoped by its variables;
* `Generator.atSite_expr_scoped`: at a site, every variable such an expression reads is declared
  at an earlier position, or it is the read of `result.length` with an allocating seed.
-/

namespace TraceSynth

namespace Expr

/-- The variables an expression reads, in order, with repetitions. -/
def vars : Expr → List String
  | .var x => [x]
  | .field o n => o.vars ++ n.vars
  | .argument i => i.vars
  | .binary _ a b => a.vars ++ b.vars
  | .not e => e.vars
  | .const _ | .alloc _ => []

/-- `e` reads only variables satisfying `V`, except that it may read `result.length` when
`useAlloc` holds. -/
inductive Scoped (V : String → Prop) (useAlloc : Bool) : Expr → Prop
  | var {x : String} : V x → Scoped V useAlloc (.var x)
  | resultLength : useAlloc = true →
      Scoped V useAlloc (.field (.var resultName) (.const (.str "length")))
  | const (v : Value) : Scoped V useAlloc (.const v)
  | alloc (array : Bool) : Scoped V useAlloc (.alloc array)
  | field {o n : Expr} : Scoped V useAlloc o → Scoped V useAlloc n → Scoped V useAlloc (.field o n)
  | argument {i : Expr} : Scoped V useAlloc i → Scoped V useAlloc (.argument i)
  | binary (op : BinaryOp) {a b : Expr} : Scoped V useAlloc a → Scoped V useAlloc b →
      Scoped V useAlloc (.binary op a b)
  | not {e : Expr} : Scoped V useAlloc e → Scoped V useAlloc (.not e)

namespace Scoped

variable {V W : String → Prop} {useAlloc : Bool}

theorem mono {e : Expr} (h : Scoped V useAlloc e) (hVW : ∀ x, V x → W x) : Scoped W useAlloc e := by
  induction h with
  | var hx => exact .var (hVW _ hx)
  | resultLength hu => exact .resultLength hu
  | const v => exact .const v
  | alloc a => exact .alloc a
  | field _ _ ho hn => exact .field ho hn
  | argument _ hi => exact .argument hi
  | binary op _ _ ha hb => exact .binary op ha hb
  | not _ he => exact .not he

/-- Every variable a scoped expression reads satisfies `V`, or it is the result, read for its
length by an allocating seed. -/
theorem mem_vars {e : Expr} (h : Scoped V useAlloc e) {x : String} (hx : x ∈ e.vars) :
    V x ∨ (x = resultName ∧ useAlloc = true) := by
  induction h with
  | var hv =>
    simp only [vars, List.mem_singleton] at hx
    exact .inl (hx ▸ hv)
  | resultLength hu =>
    simp only [vars, List.append_nil, List.mem_singleton] at hx
    exact .inr ⟨hx, hu⟩
  | const v | alloc a => simp [vars] at hx
  | field _ _ ho hn =>
    rcases List.mem_append.1 hx with hx | hx
    · exact ho hx
    · exact hn hx
  | argument _ hi => exact hi hx
  | binary op _ _ ha hb =>
    rcases List.mem_append.1 hx with hx | hx
    · exact ha hx
    · exact hb hx
  | not _ he => exact he hx

end Scoped

end Expr

namespace Generator

open RandM

/-- A drawn element of a non-empty list is one of its elements. -/
theorem pick_mem {α : Type} [Inhabited α] {xs : List α} (h : xs ≠ []) :
    Always (pick xs) (· ∈ xs) := by
  unfold pick
  refine (Random.intn_lt (List.length_pos_iff.2 h)).bind fun i hi => Always.pure ?_
  rw [List.getD_eq_getElem _ _ hi]
  exact List.getElem_mem hi

/-- The option a draw selects is one of the options. -/
theorem select_mem : ∀ {opts : List (Choice × Nat)} {n : Nat} {c : Choice},
    select opts n = some c → ∃ w, (c, w) ∈ opts
  | [], _, _, h => by simp [select] at h
  | (c', w) :: rest, n, c, h => by
    unfold select at h
    split at h
    · cases h
      exact ⟨w, List.mem_cons_self ..⟩
    · obtain ⟨w', hw'⟩ := select_mem h
      exact ⟨w', List.mem_cons_of_mem _ hw'⟩

/-- An option can be built into an expression scoped by the generator: a variable is offered
only when one is visible, and the result's length only to an allocating seed. -/
def Offers (g : Generator) (c : Choice) : Prop :=
  (c = .variable → g.vars ≠ []) ∧ (c = .resultLength → g.ctx.useAlloc = true)

theorem offers_of_mem_options {g : Generator} {depth : Nat} {c : Choice} {w : Nat}
    (h : (c, w) ∈ g.options depth) : g.Offers c := by
  constructor
  · rintro rfl hnil
    simp [options, hnil] at h
  · rintro rfl
    cases hu : g.ctx.useAlloc
    · simp [options, hu] at h
    · rfl

/-- A generated expression, if any, reads only the generator's variables and, for an allocating
seed, the result's length. -/
def Yields (g : Generator) (o : Option Expr) : Prop :=
  ∀ e, o = some e → e.Scoped (· ∈ g.vars) g.ctx.useAlloc

theorem yields_none (g : Generator) : g.Yields none := fun _ h => by cases h

theorem yields_map {g : Generator} {o : Option Expr} {f : Expr → Expr} (ho : g.Yields o)
    (hf : ∀ e, e.Scoped (· ∈ g.vars) g.ctx.useAlloc → (f e).Scoped (· ∈ g.vars) g.ctx.useAlloc) :
    g.Yields (o.map f) := by
  intro e he
  obtain ⟨a, ha, rfl⟩ := Option.map_eq_some_iff.1 he
  exact hf a (ho a ha)

section Building

variable {g : Generator}

/-- The draws keep an expression only if it was built; so they give scoped expressions when
every option offered is built into one. -/
theorem attempt_scoped {buildAt : Choice → RandM (Option Expr)}
    (hb : ∀ c, g.Offers c → Always (buildAt c) g.Yields) (depth : Nat) (req : Requirement)
    {opts : List (Choice × Nat)} (hopts : ∀ c w, (c, w) ∈ opts → g.Offers c) (total : Nat) :
    ∀ tries, Always (attempt buildAt depth req opts total tries) g.Yields
  | 0 => Always.pure g.yields_none
  | tries + 1 => by
    have ih := attempt_scoped hb depth req hopts total tries
    rw [attempt]
    refine (Always.triv _).bind fun n _ => ?_
    split
    · exact ih
    · next c hsel =>
      obtain ⟨w, hw⟩ := select_mem hsel
      refine (hb c (hopts c w hw)).bind fun e he => ?_
      split
      · exact Always.ite (fun _ => Always.pure he) fun _ => ih
      · exact ih

/-- Building an offered option gives a scoped expression, when the expressions it builds on
are scoped. -/
theorem build_scoped {sub : Requirement → RandM (Option Expr)}
    (hsub : ∀ req, Always (sub req) g.Yields) (depth : Nat) (c : Choice) (hc : g.Offers c) :
    Always (g.build sub depth c) g.Yields := by
  rw [build.eq_def]
  dsimp only
  split
  · -- an argument slot at a drawn position
    exact (Always.triv _).bind fun i _ => Always.pure fun e he => by
      cases he
      exact .argument (.const _)
  · -- a pooled constant
    exact (Always.triv _).bind fun v _ => Always.pure fun e he => by
      cases he
      exact .const v
  · -- a visible variable, offered only when one is visible
    exact (pick_mem (hc.1 rfl)).bind fun v hv => Always.pure fun e he => by
      cases he
      exact .var hv
  · -- the length of the result, offered to an allocating seed only
    exact Always.pure fun e he => by
      cases he
      exact .resultLength (hc.2 rfl)
  · -- a small whole number
    exact (Always.triv _).bind fun n _ => Always.pure fun e he => by
      cases he
      exact .const _
  · -- the sum of two visible variables
    refine Always.ite (fun _ => Always.pure g.yields_none) fun hne => ?_
    have hvars : g.vars ≠ [] := fun h => hne (by simp [h])
    exact (pick_mem hvars).bind fun a ha => (pick_mem hvars).bind fun b hb =>
      Always.pure fun e he => by
        cases he
        exact .binary .add (.var ha) (.var hb)
  · -- a building option at depth 0 builds nothing
    exact Always.pure g.yields_none
  · -- an argument slot at a generated position
    exact (hsub _).bind fun idx hidx => Always.pure (yields_map hidx fun e he => .argument he)
  · -- a generated number plus or minus one
    refine (hsub _).bind fun a ha => ?_
    split
    · exact Always.pure g.yields_none
    · next a' =>
      exact (Always.triv _).bind fun k _ => Always.pure fun e he => by
        cases he
        exact .binary .add (ha a' rfl) (.const _)
  · -- the equality of two generated expressions
    refine (hsub _).bind fun a ha => (hsub _).bind fun b hb => ?_
    split
    · next a' b' =>
      exact Always.pure fun e he => by
        cases he
        exact .binary .eq (ha a' rfl) (hb b' rfl)
    · exact Always.pure g.yields_none
  · -- the negation of a generated expression
    exact (hsub _).bind fun a ha => Always.pure (yields_map ha fun e he => .not he)

theorem draw_scoped {depth : Nat} {req : Requirement} {buildAt : Choice → RandM (Option Expr)}
    (hb : ∀ c, g.Offers c → Always (buildAt c) g.Yields) :
    Always (g.draw depth req buildAt) g.Yields := by
  unfold draw
  exact Always.ite (fun _ => Always.pure g.yields_none) fun _ =>
    attempt_scoped hb depth req (fun _ _ hc => offers_of_mem_options hc) _ 25

/-- Every expression a generator gives, at any depth and under any requirement, is scoped by
its variables: by induction on the depth, the options at a depth building on expressions
generated one depth less. -/
theorem exprAt_scoped (g : Generator) : ∀ depth req, Always (g.exprAt depth req) g.Yields
  | 0, _ => draw_scoped (build_scoped (fun _ => Always.pure g.yields_none) 0)
  | d + 1, _ => draw_scoped (build_scoped (exprAt_scoped g d) (d + 1))

end Building

/-- The variables visible at a site are those declared at an earlier position. -/
theorem mem_atSite_vars {ctx : MutationContext} {defs : List (String × Nat)} {site : Nat}
    {x : String} : x ∈ (atSite ctx defs site).vars ↔ ∃ i < site, (x, i) ∈ defs := by
  simp only [atSite, List.mem_map, List.mem_filter, decide_eq_true_eq]
  constructor
  · rintro ⟨⟨y, i⟩, ⟨hmem, hi⟩, rfl⟩
    exact ⟨i, hi, hmem⟩
  · rintro ⟨i, hi, hmem⟩
    exact ⟨(x, i), ⟨hmem, hi⟩, rfl⟩

/-- At a site, every expression generated under any requirement reads only variables declared
at an earlier position, and the result's length when the seed allocates its result. -/
theorem atSite_expr_scoped (ctx : MutationContext) (defs : List (String × Nat)) (site : Nat)
    (req : Requirement) :
    Always ((atSite ctx defs site).expr req) fun o => ∀ e, o = some e →
      e.Scoped (fun x => ∃ i < site, (x, i) ∈ defs) ctx.useAlloc :=
  (exprAt_scoped _ _ req).mono fun _ ho e he =>
    (ho e he).mono fun _ hx => mem_atSite_vars.1 hx

end Generator

end TraceSynth
