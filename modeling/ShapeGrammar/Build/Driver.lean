/-!
# Driving a walk on an explicit stack

A build is a walk: a coroutine that, each time it is resumed with a value, either hands over a
sub-walk to be run first, or returns a value, or raises a fault. The driver runs a walk to its
end without recursion, on a stack of suspended walks with the innermost on top. A sub-walk is
pushed and started with no value; a walk that returns is popped, and its value is sent to the
walk below it; the value of the last walk popped is the driver's. A fault raised by any walk
ends the drive, since no walk catches one. Resuming a walk may act on a state `σ`, threaded
through the resumes in order.

`Walker.drive` records every resume it makes (`Turn`): the height of the stack, the walk on
top, the value sent and the state it is resumed in, so that the order of the effects and the
height of the stack can be spoken of. It is bounded by fuel, one unit a resume.
-/

namespace ShapeGrammar

/-- What a walk does when it is resumed. -/
inductive Resumed (W α ε : Type) where
  /-- It hands over a sub-walk to be run first, and is left suspended as `rest`. -/
  | yields (child rest : W)
  /-- It ends with a value. -/
  | returns (value : Option α)
  /-- It ends with a fault. -/
  | raises (fault : ε)

/-- Walks of type `W`, with values `α` and faults `ε`, whose resumes act on a state `σ`. The
value sent is `none` when there is none, as for a walk just started. -/
structure Walker (W α ε σ : Type) where
  resume : W → Option α → σ → σ × Resumed W α ε

/-- One resume the driver makes. -/
structure Turn (W α σ : Type) where
  /-- The height of the stack, the walk resumed counted. -/
  height : Nat
  walk : W
  sent : Option α
  /-- The state the walk is resumed in. -/
  before : σ

/-- A finished drive: the resumes made, in order, the state after them, and the value the
last walk returned or the fault a walk raised. -/
structure Drive (W α ε σ : Type) where
  turns : List (Turn W α σ)
  state : σ
  result : Except ε (Option α)

/-- The drive with one resume made before it. -/
def Drive.after {W α ε σ : Type} (t : Turn W α σ) (d : Drive W α ε σ) : Drive W α ε σ :=
  { d with turns := t :: d.turns }

namespace Walker

variable {W α ε σ : Type} (wk : Walker W α ε σ)

/-- Run the stack of suspended walks, top first, sending `value` to the top one, with at most
`fuel` resumes; `none` when the fuel runs out first. -/
def drive : Nat → List W → Option α → σ → Option (Drive W α ε σ)
  | _, [], value, s => some ⟨[], s, .ok value⟩
  | 0, _ :: _, _, _ => none
  | fuel + 1, w :: stack, value, s =>
    let turn : Turn W α σ := ⟨stack.length + 1, w, value, s⟩
    match wk.resume w value s with
    | (s', .yields child rest) => (drive fuel (child :: rest :: stack) none s').map (.after turn)
    | (s', .returns v) => (drive fuel stack v s').map (.after turn)
    | (s', .raises f) => some ⟨[turn], s', .error f⟩

/-- Run a walk to its end: started with no value, on a stack of its own. -/
def run (fuel : Nat) (w : W) (s : σ) : Option (Drive W α ε σ) := wk.drive fuel [w] none s

@[simp] theorem drive_nil (fuel : Nat) (value : Option α) (s : σ) :
    wk.drive fuel [] value s = some ⟨[], s, .ok value⟩ := by
  cases fuel <;> rfl

@[simp] theorem drive_zero (w : W) (stack : List W) (value : Option α) (s : σ) :
    wk.drive 0 (w :: stack) value s = none := rfl

theorem drive_yields {fuel : Nat} {w : W} {stack : List W} {value : Option α} {s s' : σ}
    {child rest : W} (h : wk.resume w value s = (s', .yields child rest)) :
    wk.drive (fuel + 1) (w :: stack) value s =
      (wk.drive fuel (child :: rest :: stack) none s').map
        (.after ⟨stack.length + 1, w, value, s⟩) := by
  simp only [drive, h]

theorem drive_returns {fuel : Nat} {w : W} {stack : List W} {value : Option α} {s s' : σ}
    {v : Option α} (h : wk.resume w value s = (s', .returns v)) :
    wk.drive (fuel + 1) (w :: stack) value s =
      (wk.drive fuel stack v s').map (.after ⟨stack.length + 1, w, value, s⟩) := by
  simp only [drive, h]

theorem drive_raises {fuel : Nat} {w : W} {stack : List W} {value : Option α} {s s' : σ}
    {f : ε} (h : wk.resume w value s = (s', .raises f)) :
    wk.drive (fuel + 1) (w :: stack) value s = some ⟨[⟨stack.length + 1, w, value, s⟩], s', .error f⟩ := by
  simp only [drive, h]

end Walker

end ShapeGrammar
