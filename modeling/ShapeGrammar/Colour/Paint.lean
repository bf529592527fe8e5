import ShapeGrammar.Colour.Pool
/-!
# Paint: a colour, or a pool to draw one from

The colour carried through a build is a `Paint`: channels in hue, saturation,
brightness and alpha, and possibly a pool it is bound to. Bound paint has no fixed
value: every time it is shown it draws a colour from its pool. Any change of the
channels (`shift`, `blend`, setting them) unbinds the paint.
-/

namespace ShapeGrammar

/-- Channels, and the pool the paint is bound to, if any. -/
structure Paint where
  hsba : Hsba
  pool : Option Pool

namespace Paint

/-- Unbound paint of the given channels. -/
def ofHsba (c : Hsba) : Paint := ⟨c, none⟩

/-- Paint bound to a pool; its own channels are black at full alpha. -/
def ofPool (p : Pool) : Paint := ⟨Hsba.black, some p⟩

/-- The colour shown: a draw from the pool when bound, the channels otherwise. -/
def toRgba (c : Paint) (g : Twister) : Except Fault (Rgba × Twister) :=
  match c.pool with
  | some p => .ok (p.draw g)
  | none => c.hsba.toRgba.map fun v => (v, g)

/-- Consume the draws that `toRgba` would make. -/
def skip (c : Paint) (g : Twister) : Twister :=
  match c.pool with
  | some p => p.skip g
  | none => g

/-- Turn the hue and scale the other channels; the paint is unbound. -/
def shift (c : Paint) (d : Hsba) : Paint := ofHsba (c.hsba.shift d)

/-- Move toward a target; the paint is unbound. -/
def blend (c : Paint) (target ratio : Hsba) : Paint := ofHsba (c.hsba.blend target ratio)

end Paint

end ShapeGrammar
