import ShapeGrammar.Build.Driver
/-!
# The stack driver evaluates a walk as recursion would

`Walker.Evaluates` is recursive evaluation of a walk: resumed, a walk that yields a sub-walk
has that sub-walk evaluated in turn, one level deeper and started with no value, and is resumed
with its value, until it returns. The resumes it makes are recorded at the depth of the walk
resumed. A fault raised at any depth ends every walk around it.

The driver agrees with it exactly (`Walker.run_iff_evaluates`): it finishes with some fuel
precisely when the walk evaluates, and then with the same resumes in the same order, each from
the same state and with the same value sent, the same final state and the same result; and the
height of the stack at every resume is the nesting depth of the walk resumed. Nothing bounds
the depth.

The proof generalises over the walks suspended below: an evaluation at depth `d` on a stack of
`d - 1` walks runs the driver for one unit of fuel per resume and leaves it where the walk's
end leaves it (`Evaluates.drive_eq`); conversely a drive that finishes starts with an
evaluation of its top walk, by strong induction on the fuel (`evaluates_of_drive`).
-/

namespace ShapeGrammar

namespace Drive

variable {W α ε σ : Type}

/-- The drive with the resumes `ts` made before it. -/
def following (ts : List (Turn W α σ)) (d : Drive W α ε σ) : Drive W α ε σ :=
  { d with turns := ts ++ d.turns }

@[simp] theorem following_following (ts us : List (Turn W α σ)) (d : Drive W α ε σ) :
    following ts (following us d) = following (ts ++ us) d := by
  simp [following]

@[simp] theorem after_following (t : Turn W α σ) (ts : List (Turn W α σ)) (d : Drive W α ε σ) :
    after t (following ts d) = following (t :: ts) d := rfl

end Drive

namespace Walker

variable {W α ε σ : Type} (wk : Walker W α ε σ)

/-- **Recursive evaluation.** `wk.Evaluates d w v s turns s' r`: the walk `w`, nested `d` deep
and resumed with `v` in state `s`, runs to its end, each sub-walk it yields evaluated in turn
one level deeper and started with no value, and `w` resumed with the sub-walk's value. It makes
the resumes `turns`, each recorded at the depth of the walk resumed, and ends in state `s'` with
the value returned or the fault raised. -/
inductive Evaluates : Nat → W → Option α → σ → List (Turn W α σ) → σ → Except ε (Option α) →
    Prop
  /-- The walk returns at once. -/
  | returns {d : Nat} {w : W} {v x : Option α} {s s' : σ}
      (h : wk.resume w v s = (s', .returns x)) :
      Evaluates d w v s [⟨d, w, v, s⟩] s' (.ok x)
  /-- The walk raises at once. -/
  | raises {d : Nat} {w : W} {v : Option α} {s s' : σ} {f : ε}
      (h : wk.resume w v s = (s', .raises f)) :
      Evaluates d w v s [⟨d, w, v, s⟩] s' (.error f)
  /-- The walk yields a sub-walk that returns, and goes on with its value. -/
  | yields {d : Nat} {w child rest : W} {v x : Option α} {s s₁ s₂ s₃ : σ}
      {t₁ t₂ : List (Turn W α σ)} {r : Except ε (Option α)}
      (h : wk.resume w v s = (s₁, .yields child rest))
      (hchild : Evaluates (d + 1) child none s₁ t₁ s₂ (.ok x))
      (hrest : Evaluates d rest x s₂ t₂ s₃ r) :
      Evaluates d w v s (⟨d, w, v, s⟩ :: (t₁ ++ t₂)) s₃ r
  /-- The walk yields a sub-walk that raises, and the fault ends the walk too. -/
  | childRaises {d : Nat} {w child rest : W} {v : Option α} {s s₁ s₂ : σ}
      {t₁ : List (Turn W α σ)} {f : ε}
      (h : wk.resume w v s = (s₁, .yields child rest))
      (hchild : Evaluates (d + 1) child none s₁ t₁ s₂ (.error f)) :
      Evaluates d w v s (⟨d, w, v, s⟩ :: t₁) s₂ (.error f)

/-- What the driver does once the top walk has ended in `s` with `r`, with `fuel` left: a
value is sent to the walks below; a fault ends the drive. -/
def finish (fuel : Nat) (stack : List W) (s : σ) : Except ε (Option α) → Option (Drive W α ε σ)
  | .ok x => wk.drive fuel stack x s
  | .error f => some ⟨[], s, .error f⟩

@[simp] theorem finish_ok (fuel : Nat) (stack : List W) (s : σ) (x : Option α) :
    wk.finish fuel stack s (.ok x) = wk.drive fuel stack x s := rfl

@[simp] theorem finish_error (fuel : Nat) (stack : List W) (s : σ) (f : ε) :
    wk.finish fuel stack s (.error f) = some ⟨[], s, .error f⟩ := rfl

/-- With nothing below, the driver ends where the walk does. -/
theorem finish_nil (fuel : Nat) (s : σ) (r : Except ε (Option α)) :
    wk.finish fuel [] s r = some ⟨[], s, r⟩ := by
  cases r <;> simp

/-- **An evaluation is a run of the driver.** A walk that evaluates at depth `d`, on top of
`d - 1` suspended walks, takes the driver one unit of fuel per resume to where the walk's end
leaves it, its resumes made first. -/
theorem Evaluates.drive_eq {d : Nat} {w : W} {v : Option α} {s s' : σ} {t : List (Turn W α σ)}
    {r : Except ε (Option α)} (h : wk.Evaluates d w v s t s' r) :
    ∀ (stack : List W), stack.length + 1 = d → ∀ m,
      wk.drive (t.length + m) (w :: stack) v s = (wk.finish m stack s' r).map (.following t) := by
  -- induction on the evaluation; the stack below grows by the suspended walk at each sub-walk
  induction h with
  | returns h =>
    intro stack hd m
    subst hd
    rw [List.length_singleton, Nat.add_comm, drive_returns wk h, finish_ok]
    rfl
  | raises h =>
    intro stack hd m
    subst hd
    rw [List.length_singleton, Nat.add_comm, drive_raises wk h]
    rfl
  | @yields d w child rest v x s s₁ s₂ s₃ t₁ t₂ r h _ _ ihchild ihrest =>
    intro stack hd m
    have hfuel : (⟨d, w, v, s⟩ :: (t₁ ++ t₂)).length + m = t₁.length + (t₂.length + m) + 1 := by
      simp only [List.length_cons, List.length_append]
      omega
    rw [hfuel, drive_yields wk h, ihchild (rest :: stack) (by simp [hd]) (t₂.length + m),
      finish_ok, ihrest stack hd m, Option.map_map, Option.map_map]
    subst hd
    congr 1
    funext e
    simp
  | @childRaises d w child rest v s s₁ s₂ t₁ f h _ ihchild =>
    intro stack hd m
    have hfuel : (⟨d, w, v, s⟩ :: t₁).length + m = t₁.length + m + 1 := by
      simp only [List.length_cons]
      omega
    rw [hfuel, drive_yields wk h, ihchild (rest :: stack) (by simp [hd]) m]
    subst hd
    simp

/-- **A drive that finishes starts with an evaluation of its top walk**, which takes no more
resumes than the fuel. -/
theorem evaluates_of_drive (n : Nat) :
    ∀ {stack : List W} {w : W} {v : Option α} {s : σ} {D : Drive W α ε σ},
      wk.drive n (w :: stack) v s = some D →
      ∃ t s' r, wk.Evaluates (stack.length + 1) w v s t s' r ∧ t.length ≤ n := by
  -- strong induction on the fuel: the walk left after a sub-walk runs on what fuel is left
  induction n using Nat.strongRecOn with
  | ind n ih =>
    intro stack w v s D hD
    cases n with
    | zero => cases hD
    | succ n =>
      rcases hres : wk.resume w v s with ⟨s₁, res⟩
      cases res with
      | returns x => exact ⟨_, _, _, .returns hres, by simp⟩
      | raises f => exact ⟨_, _, _, .raises hres, by simp⟩
      | yields child rest =>
        rw [drive_yields wk hres] at hD
        obtain ⟨D₁, hD₁, -⟩ := Option.map_eq_some_iff.mp hD
        obtain ⟨t₁, s₂, r₁, hchild, hlen₁⟩ := ih n (by omega) hD₁
        cases r₁ with
        | error f => exact ⟨_, _, _, .childRaises hres hchild, by simp; omega⟩
        | ok x =>
          -- the sub-walk took `t₁.length` resumes; the walk goes on with the fuel left
          have hrun := hchild.drive_eq wk (rest :: stack) rfl (n - t₁.length)
          rw [Nat.add_sub_cancel' hlen₁, hD₁, finish_ok] at hrun
          obtain ⟨D₂, hD₂, -⟩ := Option.map_eq_some_iff.mp hrun.symm
          obtain ⟨t₂, s₃, r₂, hrest, hlen₂⟩ := ih (n - t₁.length) (by omega) hD₂
          exact ⟨_, _, _, .yields hres hchild hrest, by simp; omega⟩

/-- **The stack driver agrees with recursive evaluation.** For every walker and every walk, the
driver runs the walk to its end with some fuel exactly when recursive evaluation of the walk,
at depth one, ends; and then both make the same resumes in the same order, the same walk
resumed from the same state with the same value at each, and end in the same state with the
same value or fault. The height of the driver's stack at each resume is the depth that
evaluation records for it: the nesting depth of the walk resumed, however deep. -/
theorem run_iff_evaluates (w : W) (s : σ) (turns : List (Turn W α σ)) (s' : σ)
    (r : Except ε (Option α)) :
    (∃ n, wk.run n w s = some ⟨turns, s', r⟩) ↔ wk.Evaluates 1 w none s turns s' r := by
  constructor
  · rintro ⟨n, hn⟩
    obtain ⟨t, s₀, r₀, heval, hlen⟩ := wk.evaluates_of_drive n hn
    -- the evaluation found runs the driver to its own end, which is the drive's
    have hrun := heval.drive_eq wk [] rfl (n - t.length)
    rw [Nat.add_sub_cancel' hlen, finish_nil] at hrun
    rw [run] at hn
    rw [hn] at hrun
    simp only [Option.map_some, Drive.following, List.append_nil, Option.some.injEq,
      Drive.mk.injEq] at hrun
    obtain ⟨rfl, rfl, rfl⟩ := hrun
    exact heval
  · intro heval
    refine ⟨turns.length, ?_⟩
    have hrun := heval.drive_eq wk [] rfl 0
    rw [Nat.add_zero, finish_nil] at hrun
    simpa [run, Drive.following] using hrun

end Walker

end ShapeGrammar
