import ShapeGrammar.Structure
/-!
# Pools: skipping a colour consumes what drawing it does

An observer shown an object whose paint is bound to a pool may take its colour, drawing
from the pool (`Pool.draw`), or only consume the draws the colour would take
(`Pool.skip`). The two consume alike when the pool is *balanced*: a pool of listed
colours has its palette. Then both read three doubles from a plain `randomrgb` pool,
whatever its option, and one from every other pool (`Pool.skip_eq_draw`).

Every scheme assignment that succeeds leaves a balanced pool (`Pool.assign_balanced`),
whatever the pool was before; only a failed one can leave a pool of listed colours
without its palette, which draws three doubles and skips one. A failed assignment keeps
the scheme text and the kind but drops the palette, whatever the scheme, so it leaves a
ramp drawing continuous hues or greys (`Pool.failed_scheme_change_drops_palette`). So the settings that a
successful compilation leaves have a balanced pool, and, since the compiled grammar binds
every paint to that very pool, and a block read again for a build binds paint only to
the pool it is read with, every paint a build shows draws from one balanced pool
(`Structure.compile_drawsBalanced`).

What holds after an operation that may fail is stated with `Outcome.Holds`, and what
holds of the value a reading of operators gives with `Delta.Yields`; each has one lemma
per way of combining operations, so that a whole compilation or reading is checked
combinator by combinator.
-/

namespace ShapeGrammar

namespace Pool

/-- A pool is balanced when a pool of listed colours has its palette: skipping then
consumes what drawing does. -/
def Balanced (p : Pool) : Prop := p.kind = .listed → p.palette.isSome

/-- **A balanced pool skips what it draws.** -/
theorem skip_eq_draw {p : Pool} (hp : p.Balanced) (g : Twister) : p.skip g = (p.draw g).2 := by
  unfold skip draw
  obtain ⟨x, g'⟩ := g.next
  cases hpal : p.palette with
  | some pal => simp
  | none =>
    cases hk : p.kind with
    | listed => simp [Balanced, hk, hpal] at hp
    | randomRgb => simp
    | randomHue =>
      simp only [Option.isNone_none]
      rw [if_neg (by decide)]
      -- a hue that cannot be shown falls back to grey, after the same one draw
      split <;> rfl
    | grayscale => simp

end Pool

namespace Outcome

variable {α β : Type}

/-- `P` holds of the state of an outcome that did not fail. -/
def Holds (P : α → Prop) (o : Outcome α) : Prop := o.fault = none → P o.state

theorem holds_done {P : α → Prop} {a : α} (h : P a) : (done a).Holds P := fun _ => h

theorem holds_failed {P : α → Prop} (a : α) (f : Fault) : (failed a f).Holds P := fun h => nomatch h

theorem holds_of_fault {P : α → Prop} (a : α) (notices : List Notice) (f : Fault) :
    Holds P ⟨a, notices, some f⟩ := fun h => by cases h

theorem holds_mk {P : α → Prop} {a : α} (notices : List Notice) (h : P a) :
    Holds P ⟨a, notices, none⟩ := fun _ => h

/-- An operation that goes on only from states where `P` holds, and keeps it. -/
theorem Holds.andThen {P : α → Prop} {Q : β → Prop} {o : Outcome α} {lift : α → β}
    {k : α → Outcome β} (ho : o.Holds P) (hk : ∀ a, P a → (k a).Holds Q) :
    (o.andThen lift k).Holds Q := by
  unfold Outcome.andThen
  cases hf : o.fault with
  | some f => intro h; cases h
  | none => exact hk o.state (ho hf)

/-- Operations applied one after another, each keeping `P`. -/
theorem Holds.foldl {γ : Type} {P : α → Prop} {step : Outcome α → γ → Outcome α}
    (hstep : ∀ acc x, acc.Holds P → (step acc x).Holds P) :
    ∀ (xs : List γ) (acc : Outcome α), acc.Holds P → (xs.foldl step acc).Holds P := by
  intro xs
  induction xs with
  | nil => intro acc h; exact h
  | cons x xs ih => intro acc h; exact ih _ (hstep acc x h)

end Outcome

namespace Pool

/-- **A scheme assigned without fault leaves a balanced pool,** whatever pool it was
assigned to. -/
theorem assign_balanced (p : Pool) (text : String) : (p.assign text).Holds Balanced := by
  unfold assign
  dsimp only
  -- the kind and option read off the text, bracketed or not, go through the same cascade
  split
  all_goals
    split
    · split
      · exact Outcome.holds_done fun _ => rfl
      · exact Outcome.holds_failed _ _
    · split
      · split
        · exact Outcome.holds_failed _ _
        · intro _ h
          dsimp only [Outcome.done] at h
          split at h <;> cases h
      · split
        · exact Outcome.holds_done fun h => nomatch h
        · exact fun _ h => nomatch h

/-- **What an assignment can do.** It ends without fault in a pool that depends on the text
only and keeps the trimmed text as its scheme; or it fails, with a fault that depends on the
text only, and leaves the pool it was given without its palette. -/
theorem assign_cases (text : String) :
    (∃ q : Pool, (∀ p : Pool, (p.assign text).fault = none ∧ (p.assign text).state = q) ∧
      q.scheme = Text.trim text) ∨
    (∃ f : Fault, ∀ p : Pool,
      (p.assign text).fault = some f ∧ (p.assign text).state = { p with palette := none }) := by
  unfold assign
  dsimp only
  -- the same cascade as above; only the failed branches read the pool given
  split
  all_goals
    split
    · split
      · exact .inl ⟨_, fun _ => ⟨rfl, rfl⟩, rfl⟩
      · exact .inr ⟨_, fun _ => ⟨rfl, rfl⟩⟩
    · split
      · split
        · exact .inr ⟨_, fun _ => ⟨rfl, rfl⟩⟩
        · exact .inl ⟨_, fun _ => ⟨rfl, rfl⟩, rfl⟩
      · split
        · exact .inl ⟨_, fun _ => ⟨rfl, rfl⟩, rfl⟩
        · exact .inl ⟨_, fun _ => ⟨rfl, rfl⟩, rfl⟩

end Pool

namespace Settings

/-- The ways a change of the settings can leave the store: with the extra keys and the pool as
they were; with an extra key set, for a key that is the name of no setting; or with a scheme
assigned to the pool, an assignment that does not fail when the change does not. -/
inductive Altered (s : Settings) : Outcome Settings → Prop
  /-- The extra keys and the pool are kept. -/
  | keeps {o : Outcome Settings} (hx : o.state.extras = s.extras) (hp : o.state.pool = s.pool) :
      Altered s o
  /-- An extra key is set, for a key that is the name of no setting. -/
  | extra {o : Outcome Settings} {k v : String} (hk : ∀ w : Setting, k ≠ w.name)
      (ho : o.state = { s with extras := putExtra s.extras k v }) : Altered s o
  /-- A scheme is assigned to the pool, without fault when the change has none. -/
  | pool {o : Outcome Settings} {t : String} (ho : o.state = { s with pool := (s.pool.assign t).state })
      (hf : o.fault = none → (s.pool.assign t).fault = none) : Altered s o

/-- **What a `set` does to the store.** The key and value are those once `cp:g` and `cp:h` are
spelled out; a key that stands for no setting becomes an extra key, a count, a size or a scene
colour is written or kept, and the colour pool gets the scheme assigned. -/
theorem set_altered (s : Settings) (key value : String) : Altered s (s.set key value) := by
  unfold set
  dsimp only
  generalize (if key == "cp:g" then ("colorpool", "grayscale:" ++ value)
    else if key == "cp:h" then ("colorpool", "randomhue:" ++ value) else (key, value)) = kv
  obtain ⟨k, x⟩ := kv
  dsimp only
  cases hw : Setting.ofKey? k with
  | none => exact .extra (Setting.ne_name_of_ofKey?_eq_none hw) rfl
  | some w =>
    cases w <;> dsimp only
    case maxDepth | maxObjects | seed =>
      -- a count: the number read, truncated and capped, or the store kept
      cases readNumber? x with
      | none => exact .keeps rfl rfl
      | some y =>
        dsimp only
        -- a number that does not truncate fails the `set`; one that does is capped
        split
        · exact .keeps rfl rfl
        · exact .keeps (extras_withCount _ _ _) (pool_withCount _ _ _)
    case minSize | maxSize => cases readNumber? x <;> exact .keeps rfl rfl
    case background | floor | sky =>
      cases readColour? x with
      | none => exact .keeps rfl rfl
      | some c => exact .keeps (extras_withColour _ _ _) (pool_withColour _ _ _)
    case colourPool =>
      -- the scheme is assigned, and the `set` fails when the assignment does
      cases hf : (s.pool.assign x).fault with
      | none => exact .pool rfl fun _ => hf
      | some f =>
        dsimp only
        split <;> exact .pool rfl fun h => by cases h

/-- A change read off a caller's value that keeps the pool keeps it whatever the value. -/
theorem pool_of_map_eq_ok {β : Type} {f : β → Settings} {x : Except Fault β} {s s' : Settings}
    (h : x.map f = .ok s') (hf : ∀ b, (f b).pool = s.pool) : s'.pool = s.pool := by
  cases x with
  | error e => cases h
  | ok b =>
    cases h
    exact hf b

/-- A change read off a caller's value that keeps the extra keys keeps them whatever the value. -/
theorem extras_of_map_eq_ok {β : Type} {f : β → Settings} {x : Except Fault β} {s s' : Settings}
    (h : x.map f = .ok s') (hf : ∀ b, (f b).extras = s.extras) : s'.extras = s.extras := by
  cases x with
  | error e => cases h
  | ok b =>
    cases h
    exact hf b

/-- **What an override from the caller does to the store.** A count, a ceiling, a size, the seed
or a scene colour is written or kept, the colour pool gets a text's scheme assigned, and any
other key becomes an extra key. -/
theorem override_altered (s : Settings) (key : String) (v : Json) : Altered s (s.override key v) := by
  unfold override
  dsimp only
  split
  -- the counts, the ceilings and the sizes: the value read, or the store kept
  case h_1 | h_2 | h_3 | h_4 | h_5 | h_6 =>
    split
    · rename_i heq
      exact .keeps (extras_of_map_eq_ok heq fun _ => rfl) (pool_of_map_eq_ok heq fun _ => rfl)
    · exact .keeps rfl rfl
  case h_7 =>
    -- the seed: cleared by a null, else the value read
    split
    · exact .keeps rfl rfl
    · split
      · rename_i heq
        exact .keeps (extras_of_map_eq_ok heq fun _ => rfl) (pool_of_map_eq_ok heq fun _ => rfl)
      · exact .keeps rfl rfl
  case h_8 | h_9 | h_10 =>
    -- a scene colour: cleared by a null, else the colour read
    split
    · exact .keeps (extras_withColour _ _ _) (pool_withColour _ _ _)
    · split
      · exact .keeps (extras_withColour _ _ _) (pool_withColour _ _ _)
      · exact .keeps rfl rfl
  case h_11 =>
    -- the colour pool: a text gets its scheme assigned
    split
    · rename_i t
      cases hf : (s.pool.assign t).fault with
      | none => exact .pool rfl fun _ => hf
      | some f =>
        dsimp only
        split <;> exact .pool rfl fun h => by cases h
    · exact .keeps rfl rfl
  case h_12 =>
    -- any other key is kept as an extra key, and it is none of the names
    refine .extra (fun w => ?_) rfl
    cases w <;> assumption

/-- A change that keeps the pool or assigns it a scheme without fault leaves it balanced. -/
theorem Altered.balanced {s : Settings} {o : Outcome Settings} (h : Altered s o)
    (hs : s.pool.Balanced) : o.Holds (·.pool.Balanced) := by
  intro hok
  cases h with
  | keeps _ hp =>
    rw [hp]
    exact hs
  | extra _ ho =>
    rw [ho]
    exact hs
  | @pool t ho hf =>
    have hb := Pool.assign_balanced s.pool t (hf hok)
    rw [ho]
    -- the pool of the store is the one assigned, read off the record as it stands
    dsimp only
    exact hb

/-- A `set` that does not fail leaves a balanced pool: it assigns the scheme or keeps the
pool. -/
theorem set_balanced {s : Settings} (hs : s.pool.Balanced) (key value : String) :
    (s.set key value).Holds (·.pool.Balanced) :=
  (set_altered s key value).balanced hs

/-- An override that does not fail leaves a balanced pool. -/
theorem override_balanced {s : Settings} (hs : s.pool.Balanced) (key : String) (v : Json) :
    (s.override key v).Holds (·.pool.Balanced) :=
  (override_altered s key v).balanced hs

/-- Settings made from overrides without fault have a balanced pool. -/
theorem ofOverrides_balanced (overrides : List (String × Json)) :
    (ofOverrides overrides).Holds (·.pool.Balanced) := by
  unfold ofOverrides
  refine Outcome.Holds.foldl (fun o kv ho => ?_) overrides _ (Outcome.holds_done fun h => nomatch h)
  exact ho.andThen fun s hs => override_balanced hs kv.1 kv.2

end Settings

/-! ## A failed scheme change -/

namespace Pool

/-- **A failed assignment keeps the scheme text and the kind, and drops the palette:** the
palette is cleared before the new scheme is read, and the text and kind are set only once it
has been read. -/
theorem assign_failed {p : Pool} {text : String} {f : Fault} (h : (p.assign text).fault = some f) :
    (p.assign text).state = { p with palette := none } := by
  rcases assign_cases text with ⟨q, hq, -⟩ | ⟨f', hf⟩
  · rw [(hq p).1] at h
    cases h
  · exact (hf p).2

/-- A pool of listed colours left without its palette draws three doubles, as a `randomrgb`
pool does, and skips one. -/
theorem draw_skip_of_listed_bare {p : Pool} (hk : p.kind = .listed) (hp : p.palette = none)
    (g : Twister) : (p.draw g).2 = g.next.2.next.2.next.2 ∧ p.skip g = g.next.2 := by
  simp [draw, skip, hk, hp]

@[simp] theorem withoutPalette_eq_self_iff (p : Pool) :
    { p with palette := none } = p ↔ p.palette = none := by
  cases p
  simp [eq_comm]

end Pool

namespace Settings

@[simp] theorem withPool_eq_self_iff (s : Settings) (q : Pool) :
    { s with pool := q } = s ↔ q = s.pool := by
  cases s
  simp

/-- `set colorpool` and `set cp` assign the scheme to the settings' pool: they leave the
settings with the pool that the assignment leaves, and fail exactly when it fails (a fault
of the scheme text is reported as a bad scheme). -/
theorem set_colourPool (s : Settings) {key : String} (value : String)
    (hkey : key = "colorpool" ∨ key = "cp") :
    (s.set key value).state = { s with pool := (s.pool.assign value).state } ∧
      (s.set key value).fault.isSome = (s.pool.assign value).fault.isSome := by
  have hof : Setting.ofKey? key = some .colourPool := by rcases hkey with rfl | rfl <;> rfl
  have hshort : (if key == "cp:g" then ("colorpool", "grayscale:" ++ value)
      else if key == "cp:h" then ("colorpool", "randomhue:" ++ value) else (key, value)) =
      (key, value) := by rcases hkey with rfl | rfl <;> rfl
  unfold set
  rw [hshort]
  dsimp only
  rw [hof]
  dsimp only
  cases hf : (s.pool.assign value).fault with
  | none => simp
  | some f =>
    -- reported as a bad scheme or as it is, the fault is a fault
    dsimp only
    split <;> simp

end Settings

namespace Pool

/-- **A failed scheme change drops the palette, and only the palette.** Whenever assigning a
scheme to a pool fails, the pool keeps its scheme text and kind but loses its palette, and
`set colorpool` or `set cp` with that scheme fails too and leaves the settings with that
pool: the settings are left as they were exactly when their pool had no palette. A ramp
then draws continuous hues or greys in place of its steps, and a pool of listed colours
draws three doubles per colour but skips only one. -/
theorem failed_scheme_change_drops_palette (s : Settings) (key value : String)
    (hkey : key = "colorpool" ∨ key = "cp") (hfail : (s.pool.assign value).fault.isSome) :
    (s.pool.assign value).state = { s.pool with palette := none } ∧
      (s.set key value).fault.isSome ∧
      (s.set key value).state = { s with pool := { s.pool with palette := none } } ∧
      ((s.set key value).state = s ↔ s.pool.palette = none) ∧
      (s.pool.kind = .listed → ∀ g : Twister,
        ((s.set key value).state.pool.draw g).2 = g.next.2.next.2.next.2 ∧
          (s.set key value).state.pool.skip g = g.next.2) := by
  obtain ⟨f, hf⟩ := Option.isSome_iff_exists.mp hfail
  have hpool := assign_failed hf
  obtain ⟨hstate, hfault⟩ := s.set_colourPool value hkey
  rw [hpool] at hstate
  refine ⟨hpool, by rw [hfault]; exact hfail, hstate, ?_, fun hk g => ?_⟩
  · rw [hstate, Settings.withPool_eq_self_iff, withoutPalette_eq_self_iff]
  · rw [hstate]
    exact draw_skip_of_listed_bare (p := { s.pool with palette := none }) hk rfl g

/-- A ramp of four hues given a ramp of infinitely many steps loses its four steps, directly
and through `set cp`, so the settings do not stay as they were. -/
theorem infinite_ramp_drops_hue_steps :
    ((ofScheme "randomhue:4").state.assign "randomhue:1e400").fault.isSome = true ∧
      (({ pool := (ofScheme "randomhue:4").state } : Settings).set "cp"
        "randomhue:1e400").fault.isSome ∧
      (({ pool := (ofScheme "randomhue:4").state } : Settings).set "cp"
        "randomhue:1e400").state.pool = { (ofScheme "randomhue:4").state with palette := none } ∧
      (({ pool := (ofScheme "randomhue:4").state } : Settings).set "cp"
        "randomhue:1e400").state ≠ { pool := (ofScheme "randomhue:4").state } := by
  have hp : ((ofScheme "randomhue:4").state.assign "randomhue:1e400").fault.isSome = true := by
    decide +kernel
  have hpal : (ofScheme "randomhue:4").state.palette.isSome = true := by decide +kernel
  obtain ⟨-, hset, hstate, hsame, -⟩ :=
    failed_scheme_change_drops_palette { pool := (ofScheme "randomhue:4").state } "cp"
      "randomhue:1e400" (.inr rfl) hp
  refine ⟨hp, hset, by rw [hstate], fun h => ?_⟩
  rw [hsame.mp h] at hpal
  cases hpal

end Pool

namespace Paint

/-- Paint draws from `pool` when it is bound to no other pool. -/
def DrawsFrom (pool : Pool) (c : Paint) : Prop := ∀ p ∈ c.pool, p = pool

theorem drawsFrom_of_pool_eq_none {pool : Pool} {c : Paint} (h : c.pool = none) :
    c.DrawsFrom pool := by
  intro p hp
  rw [h] at hp
  cases hp

theorem drawsFrom_ofHsba (pool : Pool) (c : Hsba) : (ofHsba c).DrawsFrom pool := fun _ h => nomatch h

theorem drawsFrom_ofPool (pool : Pool) : (ofPool pool).DrawsFrom pool :=
  fun _ h => (Option.some.inj h).symm

theorem drawsFrom_rebind (pool : Pool) (c : Paint) : (c.rebind pool).DrawsFrom pool := by
  unfold rebind
  split
  · exact fun _ h => (Option.some.inj h).symm
  · exact drawsFrom_of_pool_eq_none ‹_›

/-- **Skipping the colour of paint that draws from a balanced pool consumes what showing
it does,** whenever the colour can be shown. -/
theorem skip_eq_of_toRgba {pool : Pool} {c : Paint} (hc : c.DrawsFrom pool) (hp : pool.Balanced)
    {g g' : Twister} {v : Rgba} (h : c.toRgba g = .ok (v, g')) : c.skip g = g' := by
  unfold toRgba at h
  unfold skip
  cases hpool : c.pool with
  | some q =>
    rw [hpool] at h
    have hdraw : q.draw g = (v, g') := Except.ok.inj h
    show q.skip g = g'
    rw [hc q hpool] at hdraw ⊢
    rw [Pool.skip_eq_draw hp g, hdraw]
  | none =>
    -- unbound paint shows its channels and draws nothing
    rw [hpool] at h
    cases hv : c.hsba.toRgba with
    | error e => rw [hv] at h; cases h
    | ok w => rw [hv] at h; cases h; rfl

end Paint

namespace Delta

/-- A delta draws from `pool` when the paint it sets, if any, does. -/
def DrawsFrom (pool : Pool) (d : Delta) : Prop := ∀ c ∈ d.paint, c.DrawsFrom pool

/-- Applying a delta keeps paint drawing from `pool`: it sets paint that does, or unbinds. -/
theorem applyToPaint_drawsFrom {pool : Pool} {d : Delta} {c : Paint} (hd : d.DrawsFrom pool)
    (hc : c.DrawsFrom pool) : (d.applyToPaint c).DrawsFrom pool := by
  unfold applyToPaint
  dsimp only
  split
  · exact Paint.drawsFrom_ofHsba _ _
  · split
    · exact Paint.drawsFrom_ofHsba _ _
    · cases hp : d.paint with
      | none => exact hc
      | some c' => exact hd c' hp

/-- `P` holds of the value of a reading of operators, from any cursor, whenever it
succeeds. -/
def Yields {α : Type} (m : Reading α) (P : α → Prop) : Prop :=
  ∀ s a s', m.run s = .ok (a, s') → P a

namespace Yields

variable {α β : Type} {P : β → Prop}

theorem pure {a : β} (h : P a) : Yields (Pure.pure a : Reading β) P := by
  intro s b s' hr
  cases hr
  exact h

theorem bind {m : Reading α} {f : α → Reading β} {Q : α → Prop} (hm : Yields m Q)
    (hf : ∀ a, Q a → Yields (f a) P) : Yields (m >>= f) P := by
  intro s b s' hr
  rw [StateT.run_bind] at hr
  cases h : m.run s with
  | error e => rw [h] at hr; cases hr
  | ok r =>
    rw [h] at hr
    exact hf r.1 (hm s r.1 r.2 h) r.2 b s' hr

theorem any (m : Reading α) : Yields m fun _ => True := fun _ _ _ _ => trivial

theorem throw {e : Fault} : Yields (MonadExcept.throw e : Reading β) P := by
  intro s b s' hr
  cases hr

theorem ite {c : Prop} [Decidable c] {m₁ m₂ : Reading β} (h₁ : Yields m₁ P) (h₂ : Yields m₂ P) :
    Yields (if c then m₁ else m₂) P := by
  split
  · exact h₁
  · exact h₂

end Yields

/-- A colour read as written is unbound. -/
theorem absolute_yields (src : Source) (t : String) :
    Yields (absolute src t) fun c => c.pool = none := by
  unfold absolute
  exact Yields.bind (Yields.any _) fun c _ => Yields.pure rfl

/-- A delta whose paint is another's draws from the pool that one draws from. -/
theorem DrawsFrom.of_paint_eq {pool : Pool} {d d' : Delta} (hd : d.DrawsFrom pool)
    (h : d'.paint = d.paint) : d'.DrawsFrom pool := by
  intro c hc
  rw [h] at hc
  exact hd c hc

/-- Paint read as written is bound to no pool. -/
theorem drawsFrom_withPaint {pool : Pool} (d : Delta) {c : Paint} (hc : c.pool = none) :
    ({ d with paint := some c } : Delta).DrawsFrom pool := by
  intro c' hc'
  cases hc'
  exact Paint.drawsFrom_of_pool_eq_none hc

/-- Paint bound to the pool draws from it. -/
theorem drawsFrom_withPaint_ofPool (d : Delta) (pool : Pool) :
    ({ d with paint := some (Paint.ofPool pool) } : Delta).DrawsFrom pool := by
  intro c' hc'
  cases hc'
  exact Paint.drawsFrom_ofPool pool

/-- A named operator sets paint that is unbound or bound to the source's pool. -/
theorem named_yields (src : Source) (d : Delta) (w : String) (hd : d.DrawsFrom src.pool) :
    Yields (named src d w) (DrawsFrom src.pool) := by
  unfold named
  dsimp only
  -- one branch per command word: only `color`, `random` and `#?` set the paint, to a colour
  -- read as written or to the source's pool; the others keep it
  refine .ite ?x (.ite ?y (.ite ?z (.ite ?rx (.ite ?ry (.ite ?rz (.ite ?s (.ite ?fx (.ite ?fy
    (.ite ?fz (.ite ?m (.ite ?hue (.ite ?sat (.ite ?brightness (.ite ?alpha (.ite ?blend
    (.ite ?color (.ite ?random .throw)))))))))))))))))
  case x | y | z | m | hue | sat | brightness | alpha =>
    exact .bind (.any _) fun _ _ => .pure (hd.of_paint_eq rfl)
  case rx | ry | rz =>
    exact .bind (.any _) fun _ _ => .bind (.any _) fun _ _ => .pure (hd.of_paint_eq rfl)
  case s =>
    refine .bind (.any _) fun _ _ => .bind (.any _) fun y _ => ?_
    cases y with
    | none => exact .pure (hd.of_paint_eq rfl)
    | some _ => exact .bind (.any _) fun _ _ => .pure (hd.of_paint_eq rfl)
  case fx | fy | fz => exact .pure (hd.of_paint_eq rfl)
  case blend =>
    exact .bind (.any _) fun _ _ => .bind (.any _) fun _ _ => .bind (.any _) fun _ _ =>
      .pure (hd.of_paint_eq rfl)
  case color =>
    refine .bind (.any _) fun t _ => ?_
    cases t with
    | some _ => exact .bind (absolute_yields _ _) fun _ hc => .pure (drawsFrom_withPaint d hc)
    | none =>
      refine .bind (.any _) fun next _ => ?_
      cases next with
      | some _ => exact .ite (.pure (drawsFrom_withPaint_ofPool d _)) .throw
      | none => exact .throw
  case random => exact .pure (drawsFrom_withPaint_ofPool d _)

theorem command_yields (src : Source) (d : Delta) (w : OpWord) (hd : d.DrawsFrom src.pool) :
    Yields (command src d w) (DrawsFrom src.pool) := by
  unfold command
  cases w with
  | hex h => exact .bind (absolute_yields _ _) fun _ hc => .pure (drawsFrom_withPaint d hc)
  | star =>
    -- a blend toward a colour or along a channel changes the target, not the paint
    refine .bind (.any _) fun t _ => ?_
    cases t with
    | some _ =>
      exact .bind (.any _) fun _ _ => .bind (.any _) fun _ _ => .pure (hd.of_paint_eq rfl)
    | none =>
      refine .bind (.any _) fun next _ => ?_
      cases next with
      | some _ =>
        exact .ite (.bind (.any _) fun _ _ => .bind (.any _) fun _ _ => .pure (hd.of_paint_eq rfl))
          .throw
      | none => exact .throw
  | name n =>
    exact .ite (.bind (absolute_yields _ _) fun _ hc => .pure (drawsFrom_withPaint d hc))
      (named_yields src d n hd)
  | _ => exact .throw

theorem commandsFrom_yields (src : Source) :
    ∀ (fuel : Nat) (d : Delta), d.DrawsFrom src.pool →
      Yields (commandsFrom src fuel d) (DrawsFrom src.pool) := by
  intro fuel
  induction fuel with
  | zero => intro d hd; exact Yields.pure hd
  | succ fuel ih =>
    intro d hd
    unfold commandsFrom
    refine Yields.bind (Yields.any _) fun w _ => ?_
    split
    · exact Yields.pure hd
    · exact Yields.bind (command_yields src d _ hd) fun d' hd' => ih d' hd'

/-- **Operators read with a pool bind paint to that pool only.** -/
theorem read_drawsFrom {text : String} {lookup : String → Option String} {pool : Pool} {d : Delta}
    (h : read text lookup pool = .ok d) : d.DrawsFrom pool := by
  unfold read at h
  cases hw : OpWord.split text with
  | error e => rw [hw] at h; cases h
  | ok words =>
    rw [hw] at h
    dsimp only [bind, Except.bind] at h
    cases hr : (commandsFrom ⟨text, lookup, pool⟩ words.length neutral).run ⟨words, false⟩ with
    | error e => rw [hr] at h; cases h
    | ok r =>
      rw [hr] at h
      obtain ⟨d', cur⟩ := r
      cases h
      exact commandsFrom_yields _ _ _ (fun c h => by cases h) _ _ _ hr

end Delta

namespace Grammar

/-- Every block of the grammar sets only paint that draws from `pool`. -/
def DrawsFrom (pool : Pool) (g : Grammar) : Prop :=
  ∀ i r, g.rule? i = some r → ∀ c ∈ r.body, ∀ b ∈ c.blocks, b.delta.DrawsFrom pool

theorem rebind_drawsFrom (g : Grammar) (pool : Pool) : (g.rebind pool).DrawsFrom pool := by
  intro i r hr c hc b hb
  simp only [rebind, rule?, Array.getElem?_map, Option.map_eq_some_iff] at hr
  obtain ⟨r₀, -, rfl⟩ := hr
  obtain ⟨c₀, -, rfl⟩ := List.mem_map.mp hc
  obtain ⟨b₀, -, rfl⟩ := List.mem_map.mp hb
  intro c' hc'
  obtain ⟨c₁, -, rfl⟩ := Option.map_eq_some_iff.mp hc'
  exact Paint.drawsFrom_rebind pool c₁

end Grammar

/-- The delta of a block for a build draws from the settings' pool when the block's own
delta does: a block that uses variables is read again with that pool. -/
theorem Scene.deltaOf_drawsFrom {sc : Scene} {b : Block} {d : Delta}
    (hb : b.delta.DrawsFrom sc.settings.pool) (h : sc.deltaOf b = .ok d) :
    d.DrawsFrom sc.settings.pool := by
  unfold deltaOf at h
  split at h
  · exact Delta.read_drawsFrom h
  · cases h
    exact hb

/-- Reading the terms of a branch with their proofs of membership is reading them: the form in
which the recursion of `Draft.compileBody` reads a chosen branch. -/
theorem Draft.mapM_node_attach (d : Draft) (vars : Variables) (ts : List Script.Term) :
    ts.attach.mapM (fun t => d.node vars t.1) = ts.mapM (d.node vars) := by
  rw [List.mapM_subtype (g := d.node vars) (fun _ _ => rfl), List.unattach_attach]

/-- Statements compiled without fault leave settings with a balanced pool. -/
theorem Draft.compileBody_balanced (vars : Variables) (rule : Nat) (picks : List Script.Branch)
    (nodes : List Node) (ss : List Script.Statement) (d : Draft) (hd : d.settings.pool.Balanced) :
    (Draft.compileBody vars rule picks nodes ss d).Holds (·.settings.pool.Balanced) := by
  fun_induction Draft.compileBody vars rule picks nodes ss d with
  | case1 => exact Outcome.holds_done hd
  | case2 _ _ _ _ _ _ _ ih => exact ih hd
  | case3 _ _ _ _ _ _ _ ih => exact (Settings.set_balanced hd _ _).andThen fun s hs => ih s hs
  | case4 _ _ _ _ _ _ _ _ _ ih₂ ih₁ =>
    -- each variant of the rule is compiled from the settings the one before it left
    refine Outcome.Holds.andThen ?_ fun d hd => ih₁ d hd
    refine Outcome.Holds.foldl (fun acc x hacc => ?_) _ _ (Outcome.holds_done hd)
    obtain ⟨w, bs⟩ := x
    refine hacc.andThen fun d hd => ?_
    split
    exact ih₂ bs d _ _ hd
  | case5 _ _ _ _ _ _ _ _ ih => exact ih hd
  | case6 => exact Outcome.holds_failed _ _
  | case7 _ _ d _ _ _ _ _ hns ih =>
    rw [Draft.mapM_node_attach] at hns
    rw [hns]
    exact ih hd
  | case8 _ _ d _ _ _ _ _ hf =>
    rw [Draft.mapM_node_attach] at hf
    rw [hf]
    exact Outcome.holds_failed _ _
  | case9 _ _ _ _ _ ih => exact ih hd

namespace Structure

/-- The pools a build of a structure draws from: its settings' pool is balanced, and its
grammar sets only paint that draws from that pool. -/
def DrawsBalanced (st : Structure) : Prop :=
  st.settings.pool.Balanced ∧ ∃ g, st.grammar = some g ∧ g.DrawsFrom st.settings.pool

/-- **A structure compiled without fault draws from one balanced pool.** -/
theorem compile_drawsBalanced (st : Structure) (script : String) (seed : Int) :
    (st.compile script seed).Holds DrawsBalanced := by
  unfold compile
  split
  · exact Outcome.holds_failed _ _
  · refine (Settings.ofOverrides_balanced _).andThen fun s hs => ?_
    dsimp only
    split
    · exact Outcome.holds_of_fault _ _ _
    · rename_i hf
      exact Outcome.holds_mk _
        ⟨Draft.compileBody_balanced _ _ _ _ _ _ hs hf, _, rfl, Grammar.rebind_drawsFrom _ _⟩

end Structure

end ShapeGrammar
