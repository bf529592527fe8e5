import ShapeGrammar.Grammar.Basic
import ShapeGrammar.Variables
import ShapeGrammar.Settings.Basic
import ShapeGrammar.Delta.Read
/-!
# Walking a grammar

A build walks the grammar depth first from the root scope and shows every object it
places to an observer. The state of the walk has two parts.

* A `Frame` is what each step passes down and gets back unchanged: the current
  transform and paint, the rule being walked, and the depth counters. Whatever a
  sub-walk does to them is undone when it returns.
* `Progress` is threaded through the whole walk: the generator, the number of objects
  placed, whether the observer asked to stop, and the observer's own state.

Every step ends with a `Flow`: go on with what follows, drop the rest of the rule body
(an object was too small or too large), or stop the build (the observer asked, or the
limit of objects is reached).

Depth counters are kept per rule name. Entering a rule counts one for its name, and the
body is walked only while the count is within the rule's depth limit (its own, or the
settings' one); a rule that is too deep walks its fallback instead, once. A reference to
a rule counts one for the name of the scope that defines the rule, and the rule is
entered only while that count is within the scope's limit.

The recursion through rules is bounded by `fuel`; `Walk.fuelFor` gives an amount that
the depth counters never let the walk exhaust. A build runs the same walk kept on one
status changed in place (`InPlace.run`), which puts back what each step changed.
-/

namespace ShapeGrammar

/-- How a step of the walk ends. -/
inductive Flow where
  /-- Go on with what follows. -/
  | more
  /-- Drop the rest of the current rule body. -/
  | cut
  /-- End the build. -/
  | stop
deriving DecidableEq, Repr

namespace Depths

/-- The count a listing of names and counts gives a name: its first entry's, or zero for a
name not listed. -/
def countIn (l : List (String × Int)) (name : String) : Int :=
  ((l.find? (·.1 == name)).map (·.2)).getD 0

/-- The listing with `delta` added to the count of `name`: in place where the name is
listed, at the end otherwise. -/
def shift (l : List (String × Int)) (name : String) (delta : Int) : List (String × Int) :=
  if l.any (·.1 == name) then l.map fun e => if e.1 == name then (name, e.2 + delta) else e
  else l ++ [(name, delta)]

theorem countIn_shift (l : List (String × Int)) (name : String) (delta : Int) (n : String) :
    countIn (shift l name delta) n = countIn l n + if n = name then delta else 0 := by
  unfold shift countIn
  split
  · rename_i hany
    -- the update keeps every key, so the entry found for `n` is the one found before
    have hkeys : ((fun e : String × Int => e.1 == n) ∘ fun e =>
        if e.1 == name then (name, e.2 + delta) else e) = fun e => e.1 == n := by
      funext e
      by_cases he : e.1 = name <;> simp [he]
    rw [List.find?_map, hkeys]
    cases hf : l.find? (·.1 == n) with
    | none =>
      have hn : n ≠ name := by
        rintro rfl
        obtain ⟨e, he, hkey⟩ := List.any_eq_true.mp hany
        exact List.find?_eq_none.mp hf e he hkey
      simp [hn]
    | some e =>
      have hen : e.1 = n := by simpa using List.find?_some hf
      by_cases hn : n = name <;> simp [hn, hen]
  · rename_i hany
    rw [List.find?_append]
    by_cases hn : n = name
    · subst hn
      have hnone : l.find? (·.1 == n) = none :=
        List.find?_eq_none.mpr fun e he hkey => by
          simp only [Bool.not_eq_true, List.any_eq_false] at hany
          simp [hany e he] at hkey
      simp [hnone]
    · simp [hn, Ne.symm hn]

/-- Listings that give every name the same count. -/
def alike : Setoid (List (String × Int)) where
  r a b := ∀ n, countIn a n = countIn b n
  iseqv := ⟨fun _ _ => rfl, fun h n => (h n).symm, fun h h' n => (h n).trans (h' n)⟩

theorem alike_iff {a b : List (String × Int)} : alike.r a b ↔ ∀ n, countIn a n = countIn b n :=
  Iff.rfl

end Depths

/-- Depth counters by rule name: listings of names and counts, taken up to the count they
give each name, so that a name never counted reads zero. -/
def Depths : Type := Quotient Depths.alike

namespace Depths

/-- No name counted. -/
def zero : Depths := Quotient.mk _ []

/-- The count of a name. -/
def get (d : Depths) (name : String) : Int :=
  Quotient.lift (countIn · name) (fun _ _ h => alike_iff.mp h name) d

/-- The counters with `delta` added to the count of a name. -/
def add (d : Depths) (name : String) (delta : Int) : Depths :=
  Quotient.lift (fun l => Quotient.mk alike (shift l name delta))
    (fun _ _ h => Quotient.sound fun n => by simp only [countIn_shift, alike_iff.mp h n]) d

/-- The counters with one more for a name. -/
def bump (d : Depths) (name : String) : Depths := d.add name 1

/-- The counters with one less for a name. -/
def drop (d : Depths) (name : String) : Depths := d.add name (-1)

/-- Counters are equal when they count every name alike. -/
theorem ext {d e : Depths} (h : ∀ n, d.get n = e.get n) : d = e := by
  induction d using Quotient.ind
  induction e using Quotient.ind
  exact Quotient.sound (alike_iff.mpr h)

@[simp] theorem get_zero (n : String) : zero.get n = 0 := rfl

@[simp] theorem get_add (d : Depths) (name : String) (delta : Int) (n : String) :
    (d.add name delta).get n = d.get n + if n = name then delta else 0 := by
  induction d using Quotient.ind
  exact countIn_shift _ _ _ _

@[simp] theorem get_bump (d : Depths) (name n : String) :
    (d.bump name).get n = d.get n + if n = name then 1 else 0 := get_add d name 1 n

@[simp] theorem get_drop (d : Depths) (name n : String) :
    (d.drop name).get n = d.get n - if n = name then 1 else 0 := by
  rw [drop, get_add]
  split <;> omega

/-- Counting a name back undoes counting it. -/
@[simp] theorem drop_bump (d : Depths) (name : String) : (d.bump name).drop name = d :=
  ext fun n => by
    rw [get_drop, get_bump]
    omega

end Depths

/-- What each step of a walk passes down and gets back unchanged. -/
structure Frame where
  transform : Transform
  paint : Paint
  /-- The index of the rule being walked. -/
  rule : Nat
  depths : Depths

/-- What an observer is shown of an object. -/
structure Sighting where
  label : String
  param : Option String
  option : Option String
  transform : Transform
  paint : Paint
  /-- The number of objects placed, this one included. -/
  count : Nat

/-- An observer of a build, with state `σ`: for each object it gets its state, the object
and the generator, and gives its new state, the generator after any draws it made, and
whether the build should stop. -/
structure Observer (σ : Type) where
  see : σ → Sighting → Twister → Except Fault (σ × Twister × Bool)

/-- What a walk threads through all its steps. -/
structure Progress (σ : Type) where
  twister : Twister
  /-- The number of objects placed. -/
  count : Nat
  /-- The observer asked the build to stop. -/
  stopped : Bool
  watch : σ

/-- What stays fixed during a build. -/
structure Scene where
  grammar : Grammar
  settings : Settings
  vars : Variables
  /-- The cube of the least size, or the fault computing it gives. -/
  smallest : Except Fault Float
  /-- The cube of the greatest size, or the fault computing it gives. -/
  largest : Except Fault Float

namespace Scene

/-- The scene of a build of a grammar. -/
def of (g : Grammar) (s : Settings) (v : Variables) : Scene := ⟨g, s, v, s.min3, s.max3⟩

@[simp] theorem grammar_of (g : Grammar) (s : Settings) (v : Variables) : (of g s v).grammar = g :=
  rfl

@[simp] theorem settings_of (g : Grammar) (s : Settings) (v : Variables) :
    (of g s v).settings = s := rfl

/-- The depth limit of a rule: its own, or the settings' one. -/
def limitOf (sc : Scene) (r : Rule) : Int := r.maxDepth.getD sc.settings.maxDepth

/-- The delta of a block for this build: read again from its text when it uses
variables, since they may have changed since it was compiled. -/
def deltaOf (sc : Scene) (b : Block) : Except Fault Delta :=
  if b.delta.usesVariables then Delta.read b.source sc.vars.get? sc.settings.pool
  else .ok b.delta

/-- The volume of the transform is strictly between the cubes of the least and greatest
size; the greatest is only computed when the volume passes the least. -/
def admits (sc : Scene) (t : Transform) : Except Fault Bool := do
  let det := t.det3
  let lo ← sc.smallest
  if lo < det then
    let hi ← sc.largest
    return det < hi
  else return false

end Scene

namespace Walk

variable {σ : Type}

/-- Place an object for a reference that names no rule: none when the limit of objects
is reached, and none, dropping the rest of the body, when its size is out of range;
otherwise the observer sees it. -/
def place (sc : Scene) (obs : Observer σ) (fr : Frame) (ref : Reference) (p : Progress σ) :
    Except Fault (Flow × Progress σ) := do
  if (p.count : Int) ≥ sc.settings.maxObjects then return (.stop, p)
  if !(← sc.admits fr.transform) then return (.cut, p)
  let count := p.count + 1
  let (w, tw, stopNow) ← obs.see p.watch ⟨ref.label, ref.param, ref.option, fr.transform, fr.paint, count⟩ p.twister
  let p : Progress σ := ⟨tw, count, p.stopped || stopNow, w⟩
  if p.stopped then return (.stop, p)
  if (count : Int) ≥ sc.settings.maxObjects then return (.stop, p)
  return (.more, p)

mutual

/-- Walk rule `i`. An empty body is passed over. Otherwise the rule's name counts one
deeper; within its limit the body is walked, and a body cut short counts as done; past
it, the fallback, if allowed and given, is found from the rule and walked with no
fallback of its own. -/
def rule (sc : Scene) (obs : Observer σ) (fuel : Nat) (fr : Frame) (i : Nat) (fallback : Bool)
    (p : Progress σ) : Except Fault (Flow × Progress σ) :=
  match fuel with
  | 0 => .ok (.more, p)
  | fuel + 1 =>
    match sc.grammar.rule? i with
    | none => .ok (.more, p)
    | some r =>
      if r.body.isEmpty then .ok (.more, p) else
      let inner : Frame := { fr with rule := i, depths := fr.depths.bump r.name }
      if inner.depths.get r.name ≤ sc.limitOf r then
        match body sc obs fuel inner r.body p with
        | .ok (.cut, p) => .ok (.more, p)
        | other => other
      else if fallback then
        match r.fallback with
        | none => .ok (.more, p)
        | some label =>
          match sc.grammar.find i label p.twister with
          | (none, _) => .error (.missingFallback label r.name)
          | (some t, tw) => rule sc obs fuel inner t false { p with twister := tw }
      else .ok (.more, p)
termination_by (fuel, 0, 0, 0)

/-- Walk the chains of a body in order while each says to go on. -/
def body (sc : Scene) (obs : Observer σ) (fuel : Nat) (fr : Frame) (cs : List Chain)
    (p : Progress σ) : Except Fault (Flow × Progress σ) :=
  match cs with
  | [] => .ok (.more, p)
  | c :: rest =>
    match chain sc obs fuel fr c.blocks c.target p with
    | .ok (.more, p) => body sc obs fuel fr rest p
    | other => other
termination_by (fuel, 3, cs.length, 0)

/-- Walk a chain: its first block applied its count of times, the rest of the chain
walked after each application, until the build stops; the chain's flow is that of its
last walk. A block with nothing after it changes nothing, but its delta is still read. -/
def chain (sc : Scene) (obs : Observer σ) (fuel : Nat) (fr : Frame) (bs : List Block)
    (target : Option Reference) (p : Progress σ) : Except Fault (Flow × Progress σ) :=
  match bs with
  | [] =>
    match target with
    | none => .ok (.more, p)
    | some ref => reference sc obs fuel fr ref p
  | b :: rest =>
    match sc.deltaOf b with
    | .error f => .error f
    | .ok d =>
      if rest.isEmpty && target.isNone then .ok (.more, p)
      else repeated sc obs fuel fr d rest target b.count .more p
termination_by (fuel, 2, 2 * bs.length, 0)

/-- Apply `d` and walk the rest of the chain, `n` more times; `last` is the flow of the
last walk. -/
def repeated (sc : Scene) (obs : Observer σ) (fuel : Nat) (fr : Frame) (d : Delta)
    (bs : List Block) (target : Option Reference) (n : Nat) (last : Flow) (p : Progress σ) :
    Except Fault (Flow × Progress σ) :=
  match n with
  | 0 => .ok (last, p)
  | n + 1 =>
    let (t, c) := d.apply fr.transform fr.paint
    let fr := { fr with transform := t, paint := c }
    match chain sc obs fuel fr bs target p with
    | .ok (.stop, p) => .ok (.stop, p)
    | .ok (flow, p) => repeated sc obs fuel fr d bs target n flow p
    | .error f => .error f
termination_by (fuel, 2, 2 * bs.length + 1, n)

/-- Walk a reference: a rule it names, if the depth of the scope defining the rule allows,
or else the object it places. After a rule the walk goes on unless it stopped. -/
def reference (sc : Scene) (obs : Observer σ) (fuel : Nat) (fr : Frame) (ref : Reference)
    (p : Progress σ) : Except Fault (Flow × Progress σ) :=
  match sc.grammar.find fr.rule ref.label p.twister with
  | (none, tw) => place sc obs fr ref { p with twister := tw }
  | (some i, tw) =>
    let p := { p with twister := tw }
    let scope := ((sc.grammar.rule? i).bind fun r => r.parent.bind sc.grammar.rule?)
    match scope with
    | none => .ok (.more, p)
    | some s =>
      let fr := { fr with depths := fr.depths.bump s.name }
      if fr.depths.get s.name ≤ sc.limitOf s then
        match rule sc obs fuel fr i true p with
        | .ok (.stop, p) => .ok (.stop, p)
        | .ok (_, p) => .ok (.more, p)
        | .error f => .error f
      else .ok (.more, p)
termination_by (fuel, 1, 0, 0)

end

/-- The greatest depth limit of any rule of the scene, at least zero. -/
def deepest (sc : Scene) : Nat :=
  (sc.grammar.rules.foldl (fun acc r => max acc (sc.limitOf r)) sc.settings.maxDepth).toNat

/-- Fuel that a walk from the root never exhausts. On any path of nested rules, a name's
rules are walked at most as often as the greatest limit of that name, since each of
them counts its name one deeper; a rule too deep walks at most its fallback, which has
none. So the rules on a path number at most twice the names times the deepest limit,
and two more. -/
def fuelFor (sc : Scene) : Nat := 2 * sc.grammar.size * (deepest sc + 1) + 3

/-- The frame a build starts from: no transform, full red, the root scope, no depth. -/
def start : Frame := ⟨Transform.identity, Paint.ofHsba ⟨0.0, 1.0, 1.0, 1.0⟩, 0, Depths.zero⟩

/-- The progress a build starts from: the generator seeded by `seed`, no object placed. -/
def begin (init : σ) (seed : Int) : Progress σ :=
  ⟨Twister.ofSeed (Twister.seedOfInt seed), 0, false, init⟩

end Walk

end ShapeGrammar
