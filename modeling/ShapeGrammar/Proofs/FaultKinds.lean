import ShapeGrammar.Command
import ShapeGrammar.Proofs.Lockstep
import ShapeGrammar.Proofs.Parsing
/-!
# The faults a script can end with

Each stage of making and building a structure fails in its own way. The caller's settings are
refused as faults of the settings; a script that cannot be read or compiled ends with a fault
of the script; a build ends with a fault of the build when a fallback names no rule, or when
nothing was compiled. These are the faults the program reports as its own.

But numbers flow from the script and the settings into conversions that no stage checks: a
depth that reads as an infinite double has no integer part, an integer too large has no
nearest double, the cube of a large size overflows, an infinite angle has no sine or cosine,
and a colour whose hue turned infinite or NaN cannot be shown. Those end a stage with a
numeric fault, which no stage turns into one of its own.

This file proves that nothing else can happen (`Fault.Within`): making a structure ends only
with faults of the settings, of the script, or numeric ones; building one only with faults of
the script or of the build, or numeric ones; and so the two commands on a script end with
status 0 or 2, or give back a numeric fault (`faults_reported_or_numeric`).
-/

namespace ShapeGrammar

namespace Fault

/-- A fault of a numeric conversion that no stage checks for: a double with no integer part,
an integer with no nearest double, a cube out of range, an angle with no sine or cosine. -/
def isNumeric : Fault → Bool
  | .infiniteToInteger | .nanToInteger | .intTooLarge | .powerOutOfRange | .infiniteAngle => true
  | _ => false

/-- A fault of one of the kinds `kinds`, or of a numeric conversion. -/
def Within (kinds : List FaultKind) (f : Fault) : Prop := f.kind ∈ kinds ∨ f.isNumeric = true

theorem Within.mono {ks ks' : List FaultKind} (h : ∀ k ∈ ks, k ∈ ks') {f : Fault}
    (hf : f.Within ks) : f.Within ks' :=
  hf.imp (h _) id

theorem within_of_kind {ks : List FaultKind} {f : Fault} (h : f.kind ∈ ks) : f.Within ks := .inl h

theorem within_of_isNumeric (ks : List FaultKind) {f : Fault} (h : f.isNumeric = true) :
    f.Within ks := .inr h

/-- A numeric fault is an overflow or a bad value: never a fault of the settings, of the
script or of the build. -/
theorem kind_of_isNumeric {f : Fault} (h : f.isNumeric = true) :
    f.kind = .overflow ∨ f.kind = .value := by
  cases f <;> simp_all [isNumeric, kind]

end Fault

/-- Every fault that `x` can end with satisfies `P`. -/
def FaultsIn {α : Type} (P : Fault → Prop) (x : Except Fault α) : Prop := ∀ f, x = .error f → P f

namespace FaultsIn

variable {α β : Type} {P : Fault → Prop}

theorem ok (a : α) : FaultsIn P (.ok a : Except Fault α) := fun _ h => by cases h

theorem error {f : Fault} (h : P f) : FaultsIn P (.error f : Except Fault α) := by
  intro f' he
  cases he
  exact h

theorem map {x : Except Fault α} (g : α → β) (h : FaultsIn P x) : FaultsIn P (x.map g) := by
  intro f he
  cases x with
  | error e =>
    cases he
    exact h f rfl
  | ok a => cases he

theorem bind {x : Except Fault α} {k : α → Except Fault β} (hx : FaultsIn P x)
    (hk : ∀ a, FaultsIn P (k a)) : FaultsIn P (x >>= k) := by
  intro f he
  cases x with
  | error e =>
    cases he
    exact hx f rfl
  | ok a => exact hk a f he

theorem mono {Q : Fault → Prop} {x : Except Fault α} (h : ∀ f, P f → Q f) (hx : FaultsIn P x) :
    FaultsIn Q x :=
  fun f he => h f (hx f he)

end FaultsIn

namespace Outcome

variable {α β : Type}

/-- Every fault that an operation can end with satisfies `P`. -/
def FaultsIn (P : Fault → Prop) (o : Outcome α) : Prop := ∀ f, o.fault = some f → P f

variable {P : Fault → Prop}

theorem faultsIn_done (a : α) : (done a).FaultsIn P := fun _ h => by cases h

theorem faultsIn_failed (a : α) {f : Fault} (h : P f) : (failed a f).FaultsIn P := by
  intro f' he
  cases he
  exact h

theorem faultsIn_mk (a : α) (notices : List Notice) : FaultsIn P ⟨a, notices, none⟩ :=
  fun _ h => by cases h

theorem faultsIn_some (a : α) (notices : List Notice) {f : Fault} (h : P f) :
    FaultsIn P ⟨a, notices, some f⟩ := by
  intro f' he
  cases he
  exact h

/-- An operation that goes on from another fails only as either may. -/
theorem FaultsIn.andThen {o : Outcome α} {lift : α → β} {k : α → Outcome β} (ho : o.FaultsIn P)
    (hk : ∀ a, (k a).FaultsIn P) : (o.andThen lift k).FaultsIn P := by
  unfold Outcome.andThen
  cases hf : o.fault with
  | some f => exact fun f' he => ho f' (hf.trans he)
  | none => exact hk o.state

theorem FaultsIn.map {o : Outcome α} (g : α → β) (ho : o.FaultsIn P) : (o.map g).FaultsIn P := ho

theorem FaultsIn.mono {Q : Fault → Prop} {o : Outcome α} (h : ∀ f, P f → Q f) (ho : o.FaultsIn P) :
    o.FaultsIn Q :=
  fun f he => h f (ho f he)

/-- An operation that goes on from another, where only what the first leaves without fault
matters. -/
theorem FaultsIn.andThen_state {o : Outcome α} {lift : α → β} {k : α → Outcome β}
    (ho : o.FaultsIn P) (hk : o.fault = none → (k o.state).FaultsIn P) :
    (o.andThen lift k).FaultsIn P := by
  unfold Outcome.andThen
  cases hf : o.fault with
  | some f => exact fun f' he => ho f' (hf.trans he)
  | none => exact hk hf

/-- Operations applied one after another fail only as one of them may. -/
theorem FaultsIn.foldl {γ : Type} {step : Outcome α → γ → Outcome α}
    (hstep : ∀ acc x, acc.FaultsIn P → (step acc x).FaultsIn P) :
    ∀ (xs : List γ) (acc : Outcome α), acc.FaultsIn P → (xs.foldl step acc).FaultsIn P := by
  intro xs
  induction xs with
  | nil => intro acc h; exact h
  | cons x xs ih => intro acc h; exact ih _ (hstep acc x h)

end Outcome

/-! ## Settings -/

namespace Pool

open Outcome

theorem rampSteps_faultsIn (option : String) :
    FaultsIn (fun f => f.isNumeric = true) (rampSteps option) := by
  unfold rampSteps
  -- an empty option, one that is no number and a NaN give no steps; only an infinite number
  -- of steps is refused
  split
  · exact FaultsIn.ok _
  · split
    · exact FaultsIn.ok _
    · split
      · exact FaultsIn.ok _
      · split
        · exact FaultsIn.ok _
        · exact FaultsIn.error rfl

/-- A scheme is refused with a bad value, for a listed colour that cannot be read, or with a
numeric fault, for a number of steps that is infinite. -/
theorem assign_faultsIn (p : Pool) (text : String) :
    (p.assign text).FaultsIn fun f => f.kind = .value ∨ f.isNumeric = true := by
  unfold assign
  dsimp only
  -- the kind and option read off the text, bracketed or not, go through the same cascade
  split
  all_goals
    split
    · split
      · exact faultsIn_done _
      · exact faultsIn_failed _ (.inl rfl)
    · split
      · split
        · exact faultsIn_failed _ (.inr (rampSteps_faultsIn _ _ ‹_›))
        · exact faultsIn_done _
      · split
        · exact faultsIn_done _
        · exact faultsIn_mk _ _

/-- A scheme refused with anything but a bad value is refused with a numeric fault. -/
theorem isNumeric_of_assign {p : Pool} {text : String} {f : Fault} (hf : (p.assign text).fault = some f)
    (hk : ¬f.kind = .value) : f.isNumeric = true :=
  ((assign_faultsIn p text) f hf).resolve_left hk

end Pool

namespace Settings

open Outcome

/-- **A setting of a script is refused as a fault of the script, or with a numeric fault.** A
value that is no number or colour is a fault of the script, and so is a bad colour pool; a
count that is infinite or NaN, or a ramp of infinite steps, is numeric. -/
theorem set_faultsIn (s : Settings) (key value : String) :
    (s.set key value).FaultsIn (Fault.Within [.script]) := by
  unfold set
  dsimp only
  -- the key and value once the `cp:g` and `cp:h` shorthands are spelled out
  generalize (if key == "cp:g" then ("colorpool", "grayscale:" ++ value)
    else if key == "cp:h" then ("colorpool", "randomhue:" ++ value) else (key, value)) = kv
  obtain ⟨k, x⟩ := kv
  dsimp only
  cases Setting.ofKey? k with
  | none => exact faultsIn_done _
  | some w =>
    cases w <;> dsimp only
    case maxDepth | maxObjects | seed =>
      -- a value that is no number is a fault of the script, one that does not truncate numeric
      cases readNumber? x with
      | none => exact faultsIn_failed _ (Fault.within_of_kind (by simp [Fault.kind]))
      | some y =>
        dsimp only
        split
        · exact faultsIn_failed _ (Fault.within_of_isNumeric _ (by split <;> rfl))
        · exact faultsIn_mk _ _
    case minSize | maxSize =>
      cases readNumber? x with
      | none => exact faultsIn_failed _ (Fault.within_of_kind (by simp [Fault.kind]))
      | some _ => exact faultsIn_done _
    case background | floor | sky =>
      cases readColour? x with
      | none => exact faultsIn_failed _ (Fault.within_of_kind (by simp [Fault.kind]))
      | some _ => exact faultsIn_done _
    case colourPool =>
      -- a bad value for the scheme is a fault of the script; any other fault is numeric
      split
      · exact faultsIn_mk _ _
      · rename_i f hf
        split
        · exact faultsIn_some _ _ (Fault.within_of_kind (by simp [Fault.kind]))
        · rename_i hk
          exact faultsIn_some _ _ (Fault.within_of_isNumeric _ (Pool.isNumeric_of_assign hf hk))

theorem doubleOfInt?_faultsIn (n : Int) :
    FaultsIn (fun f => f.isNumeric = true) (Number.doubleOfInt? n) := by
  cases h : Number.fitsDouble n
  · rw [Number.doubleOfInt?_of_not_fits h]
    exact FaultsIn.error rfl
  · rw [Number.doubleOfInt?_of_fits h]
    exact FaultsIn.ok _

theorem countOf_faultsIn (path : String) (v : Json) :
    FaultsIn (Fault.Within [.config]) (countOf path v) := by
  have hcount : Fault.Within [.config] (.configCount path) := Fault.within_of_kind (by simp [Fault.kind])
  unfold countOf
  split
  · split
    · exact FaultsIn.ok _
    · exact FaultsIn.error hcount
  · exact FaultsIn.error hcount

/-- A size from the caller is refused as a fault of the settings, or as a whole number with no
nearest double. -/
theorem sizeOf_faultsIn (path : String) (v : Json) :
    FaultsIn (Fault.Within [.config]) (sizeOf path v) := by
  have hsize : Fault.Within [.config] (.configSize path) := Fault.within_of_kind (by simp [Fault.kind])
  unfold sizeOf
  split
  · split
    · exact (doubleOfInt?_faultsIn _).mono fun _ => Fault.within_of_isNumeric _
    · exact FaultsIn.error hsize
  · split
    · exact FaultsIn.ok _
    · exact FaultsIn.error hsize
  · exact FaultsIn.error hsize

/-- **An override from the caller is refused as a fault of the settings, or with a numeric
fault.** -/
theorem override_faultsIn (s : Settings) (key : String) (v : Json) :
    (s.override key v).FaultsIn (Fault.Within [.config]) := by
  unfold override
  dsimp only
  split
  -- the counts and the ceilings: the value is read as a count
  case h_1 | h_2 | h_3 | h_4 =>
    split
    · exact faultsIn_done _
    · rename_i hf
      exact faultsIn_failed _ (FaultsIn.map _ (countOf_faultsIn _ _) _ hf)
  -- the sizes: the value is read as a size
  case h_5 | h_6 =>
    split
    · exact faultsIn_done _
    · rename_i hf
      exact faultsIn_failed _ (FaultsIn.map _ (sizeOf_faultsIn _ _) _ hf)
  case h_7 =>
    -- the seed: cleared by a null, else read as a count
    split
    · exact faultsIn_done _
    · split
      · exact faultsIn_done _
      · rename_i hf
        exact faultsIn_failed _ (FaultsIn.map _ (countOf_faultsIn _ _) _ hf)
  case h_8 | h_9 | h_10 =>
    -- a scene colour: cleared by a null, else a colour or a fault of the settings
    split
    · exact faultsIn_done _
    · split
      · exact faultsIn_done _
      · exact faultsIn_failed _ (Fault.within_of_kind (by simp [Fault.kind]))
  case h_11 =>
    -- the colour pool: a text whose scheme is refused for a bad value is a fault of the
    -- settings, and any other fault numeric; a value that is no text is a fault of the settings
    split
    · split
      · exact faultsIn_mk _ _
      · rename_i f hf
        split
        · exact faultsIn_some _ _ (Fault.within_of_kind (by simp [Fault.kind]))
        · rename_i hk
          exact faultsIn_some _ _ (Fault.within_of_isNumeric _ (Pool.isNumeric_of_assign hf hk))
    · exact faultsIn_failed _ (Fault.within_of_kind (by simp [Fault.kind]))
  -- any other key is kept as an extra key
  case h_12 => exact faultsIn_done _

/-- Settings made from overrides are refused as a fault of the settings, or with a numeric
fault. -/
theorem ofOverrides_faultsIn (overrides : List (String × Json)) :
    (ofOverrides overrides).FaultsIn (Fault.Within [.config]) := by
  unfold ofOverrides
  refine FaultsIn.foldl (fun o kv ho => ?_) overrides _ (faultsIn_done _)
  exact ho.andThen fun s => override_faultsIn s kv.1 kv.2

end Settings

/-! ## Reading a script -/

namespace Script

theorem RuleOptions.apply_faultsIn (o : RuleOptions) (item : OptionItem) :
    FaultsIn (Fault.Within [.script]) (o.apply item) := by
  cases item with
  | fallback label => exact FaultsIn.ok _
  | keyed key number =>
    simp only [RuleOptions.apply]
    -- a weight is read; a depth limit fails only when infinite; any other key is refused
    split
    · exact FaultsIn.ok _
    · split
      · split
        · exact FaultsIn.ok _
        · exact FaultsIn.error (Fault.within_of_isNumeric _ rfl)
      · exact FaultsIn.error (Fault.within_of_kind (by simp [Fault.kind]))

theorem RuleOptions.stray_within (gap : List Char) : (RuleOptions.stray gap).Within [.script] :=
  Fault.within_of_kind (by simp [RuleOptions.stray, Fault.kind])

/-- Rule options are refused as a fault of the script, or for a depth with no integer part. -/
theorem RuleOptions.read_faultsIn (text : String) :
    FaultsIn (Fault.Within [.script]) (RuleOptions.read text) := by
  unfold RuleOptions.read
  fun_induction RuleOptions.readFrom RuleOptions.plain [] text.toList with
  | case1 => exact FaultsIn.ok _
  | case2 _ gap _ => exact FaultsIn.error (RuleOptions.stray_within gap)
  | case3 _ _ _ _ _ _ _ _ _ _ ih => exact ih
  | case4 o _ _ _ item _ _ _ f hf => exact FaultsIn.error (RuleOptions.apply_faultsIn o item f hf)
  | case5 _ gap _ _ _ _ _ _ => exact FaultsIn.error (RuleOptions.stray_within gap)
  | case6 _ _ _ _ _ ih => exact ih

namespace Reader

theorem fault_within (rd : Reader) (p : SyntaxProblem) (tok : Token) : (rd.fault p tok).Within [.script] :=
  Fault.within_of_kind (by simp [Reader.fault, Fault.kind])

/-- A fault of rule options placed at its rule is still one of the script, or numeric. -/
theorem placed_within (rd : Reader) {f : Fault} (h : f.Within [.script]) (tok : Token) :
    (rd.placed f tok).Within [.script] := by
  unfold placed
  split
  · exact rd.fault_within _ tok
  · exact h

end Reader

section Reading

variable {rd : Reader} (hstop : ∀ f, rd.stop = some f → f.Within [.script])
include hstop

/-- A fault the tokens were stopped by, or else a fault of the script. -/
theorem stop_getD_within (f : Fault) (hf : f.Within [.script]) : (rd.stop.getD f).Within [.script] := by
  cases h : rd.stop with
  | none => exact hf
  | some f' => exact hstop f' h

theorem readGroup_faultsIn (opening : Token) (branches : List Branch) (weight : Float)
    (items : List Term) (ts : List Token) :
    FaultsIn (Fault.Within [.script]) (readGroup rd opening branches weight items ts) := by
  fun_induction readGroup rd opening branches weight items ts
  -- a group ends at its bracket, or with a fault at the token that cannot stand in it
  all_goals first
    | exact FaultsIn.ok _
    | exact FaultsIn.error (stop_getD_within hstop _ (rd.fault_within _ _))
    | exact FaultsIn.error (rd.fault_within _ _)
    | exact FaultsIn.map _ ‹_›

/-- **Tokens are read into statements, or refused as a fault of the script**, or for rule
options with a depth that has no integer part. -/
theorem readBody_faultsIn (rule : Option (Token × String)) (acc : List Statement) (ts : List Token) :
    FaultsIn (Fault.Within [.script]) (readBody rd rule acc ts) := by
  fun_induction readBody rd rule acc ts
  all_goals first
    | exact FaultsIn.ok _
    | exact FaultsIn.error (hstop _ ‹_›)
    | exact FaultsIn.error (rd.fault_within _ _)
    | exact FaultsIn.map _ ‹_›
    | skip
  case case8 _ _ tok _ _ text _ f hf =>
    exact FaultsIn.error (rd.placed_within (RuleOptions.read_faultsIn text f hf) tok)
  case case9 _ _ _ _ _ _ _ _ _ f hf ih => exact FaultsIn.error (ih f hf)
  case case12 _ tok rest _ _ f hf => exact FaultsIn.error (readGroup_faultsIn hstop tok [] 1.0 [] rest f hf)

end Reading

/-- **A script is read, or refused as a fault of the script,** or for rule options with a
depth that has no integer part. -/
theorem parse_faultsIn (script : String) : FaultsIn (Fault.Within [.script]) (parse script) := by
  unfold parse
  refine FaultsIn.map _ (readBody_faultsIn ?_ none [] _)
  -- the scan stops only at a syntax problem, placed at its line and column
  intro f hf
  obtain ⟨⟨p, pos⟩, -, rfl⟩ := Option.map_eq_some_iff.mp hf
  exact Fault.within_of_kind (by simp [problemAt, Fault.kind])

end Script

/-! ## Reading operators -/

namespace Transform

theorem turn_faultsIn (θ : Float) : FaultsIn (Fault.Within [.script]) (turn θ) := by
  unfold turn
  split
  · exact FaultsIn.error (Fault.within_of_isNumeric _ rfl)
  · exact FaultsIn.ok _

theorem rotationX_faultsIn (θ : Float) : FaultsIn (Fault.Within [.script]) (rotationX θ) :=
  FaultsIn.bind (turn_faultsIn θ) fun _ => FaultsIn.ok _

theorem rotationY_faultsIn (θ : Float) : FaultsIn (Fault.Within [.script]) (rotationY θ) :=
  FaultsIn.bind (turn_faultsIn θ) fun _ => FaultsIn.ok _

theorem rotationZ_faultsIn (θ : Float) : FaultsIn (Fault.Within [.script]) (rotationZ θ) :=
  FaultsIn.bind (turn_faultsIn θ) fun _ => FaultsIn.ok _

end Transform

/-- The words of an operator text are split, or refused at the first that is no word. -/
theorem OpWord.splitFrom_faultsIn (text : String) (cs : List Char) :
    FaultsIn (Fault.Within [.script]) (OpWord.splitFrom text cs) := by
  fun_induction OpWord.splitFrom text cs
  all_goals first
    | exact FaultsIn.ok _
    | exact FaultsIn.error (Fault.within_of_kind (by simp [Fault.kind]))
    | exact FaultsIn.map _ ‹_›
    | exact ‹_›

namespace Delta

/-- Every fault that a reading of operators can end with, from any cursor, satisfies `P`. -/
def ReadFaultsIn {α : Type} (P : Fault → Prop) (m : Reading α) : Prop := ∀ c, FaultsIn P (m.run c)

namespace ReadFaultsIn

variable {α β : Type} {P : Fault → Prop}

theorem pure (a : α) : ReadFaultsIn P (Pure.pure a : Reading α) := fun _ => FaultsIn.ok _

theorem throw {e : Fault} (h : P e) : ReadFaultsIn P (MonadExcept.throw e : Reading α) :=
  fun _ => FaultsIn.error h

theorem bind {m : Reading α} {f : α → Reading β} (hm : ReadFaultsIn P m)
    (hf : ∀ a, ReadFaultsIn P (f a)) : ReadFaultsIn P (m >>= f) := by
  intro c
  rw [StateT.run_bind]
  exact FaultsIn.bind (hm c) fun r => hf r.1 r.2

theorem ite {c : Prop} [Decidable c] {m₁ m₂ : Reading α} (h₁ : ReadFaultsIn P m₁)
    (h₂ : ReadFaultsIn P m₂) : ReadFaultsIn P (if c then m₁ else m₂) := by
  split
  · exact h₁
  · exact h₂

theorem lift {e : Except Fault α} (h : FaultsIn P e) : ReadFaultsIn P (liftM e : Reading α) := by
  intro c
  cases e with
  | error f => exact FaultsIn.error (h f rfl)
  | ok a => exact FaultsIn.ok _

theorem peek : ReadFaultsIn P Delta.peek := fun _ => FaultsIn.ok _

theorem advance (b : Bool) : ReadFaultsIn P (Delta.advance b) := fun _ => FaultsIn.ok _

end ReadFaultsIn

namespace Source

theorem fault_within (src : Source) (p : OperatorProblem) : (src.fault p).Within [.script] :=
  Fault.within_of_kind (by simp [Source.fault, Fault.kind])

theorem variableOf_faultsIn (src : Source) (w : OpWord) :
    FaultsIn (Fault.Within [.script]) (src.variableOf w) := by
  unfold variableOf
  split
  · -- a `$name` is refused when it is not bound
    split
    · exact FaultsIn.ok _
    · exact FaultsIn.error (src.fault_within _)
  · exact FaultsIn.ok _
  · exact FaultsIn.ok _

theorem recolour_faultsIn (src : Source) (c : Hsba) (text : String) :
    FaultsIn (Fault.Within [.script]) (src.recolour c text) := by
  unfold recolour
  split
  · exact FaultsIn.ok _
  · exact FaultsIn.error (src.fault_within _)

end Source

variable (src : Source)

theorem numberOpt_faultsIn : ReadFaultsIn (Fault.Within [.script]) (numberOpt src) := by
  unfold numberOpt
  refine ReadFaultsIn.peek.bind fun w => ?_
  split
  · exact (ReadFaultsIn.advance _).bind fun _ => ReadFaultsIn.pure _
  · refine (ReadFaultsIn.lift (src.variableOf_faultsIn _)).bind fun v => ?_
    split
    · refine (ReadFaultsIn.advance _).bind fun _ => ?_
      split
      · exact ReadFaultsIn.pure _
      · exact ReadFaultsIn.throw (src.fault_within _)
    · exact ReadFaultsIn.pure _
  · exact ReadFaultsIn.pure _

theorem number_faultsIn (command : String) : ReadFaultsIn (Fault.Within [.script]) (number src command) := by
  unfold number
  refine (numberOpt_faultsIn src).bind fun x => ?_
  split
  · exact ReadFaultsIn.pure _
  · exact ReadFaultsIn.throw (src.fault_within _)

theorem numbers_faultsIn (command : String) :
    ∀ n, ReadFaultsIn (Fault.Within [.script]) (numbers src command n) := by
  intro n
  induction n with
  | zero => exact ReadFaultsIn.pure _
  | succ n ih =>
    unfold numbers
    exact (number_faultsIn src command).bind fun x => ih.bind fun xs => ReadFaultsIn.pure _

theorem colourOpt_faultsIn : ReadFaultsIn (Fault.Within [.script]) (colourOpt src) := by
  unfold colourOpt
  refine ReadFaultsIn.peek.bind fun w => ?_
  split
  · exact ReadFaultsIn.pure _
  · refine (ReadFaultsIn.lift (src.variableOf_faultsIn _)).bind fun v => ?_
    dsimp only
    split
    · exact ReadFaultsIn.pure _
    · refine (ReadFaultsIn.advance _).bind fun _ => ?_
      split
      · exact ReadFaultsIn.pure _
      · exact ReadFaultsIn.throw (src.fault_within _)

theorem colour_faultsIn (command : String) : ReadFaultsIn (Fault.Within [.script]) (colour src command) := by
  unfold colour
  refine (colourOpt_faultsIn src).bind fun t => ?_
  split
  · exact ReadFaultsIn.pure _
  · exact ReadFaultsIn.throw (src.fault_within _)

theorem take_faultsIn : ReadFaultsIn (Fault.Within [.script]) take := by
  unfold take
  refine ReadFaultsIn.peek.bind fun w => ?_
  exact ReadFaultsIn.ite ((ReadFaultsIn.advance _).bind fun _ => ReadFaultsIn.pure _) (ReadFaultsIn.pure _)

theorem absolute_faultsIn (text : String) : ReadFaultsIn (Fault.Within [.script]) (absolute src text) := by
  unfold absolute
  exact (ReadFaultsIn.lift (src.recolour_faultsIn _ _)).bind fun c => ReadFaultsIn.pure _

/-- A geometry or colour command is refused as a fault of the script, or for a rotation by an
infinite angle. -/
theorem named_faultsIn (d : Delta) (w : String) :
    ReadFaultsIn (Fault.Within [.script]) (named src d w) := by
  unfold named
  dsimp only
  -- one branch per command word, in the order `named` tests them: each fails only as its
  -- arguments are read, a turn also for an infinite angle, and an unknown word is refused
  refine .ite ?x (.ite ?y (.ite ?z (.ite ?rx (.ite ?ry (.ite ?rz (.ite ?s (.ite ?fx (.ite ?fy
    (.ite ?fz (.ite ?m (.ite ?hue (.ite ?sat (.ite ?brightness (.ite ?alpha (.ite ?blend
    (.ite ?color (.ite ?random (.throw (src.fault_within _)))))))))))))))))))
  case x | y | z | hue | sat | brightness | alpha =>
    exact (number_faultsIn src _).bind fun _ => .pure _
  case rx =>
    exact (number_faultsIn src _).bind fun _ =>
      (ReadFaultsIn.lift (Transform.rotationX_faultsIn _)).bind fun _ => .pure _
  case ry =>
    exact (number_faultsIn src _).bind fun _ =>
      (ReadFaultsIn.lift (Transform.rotationY_faultsIn _)).bind fun _ => .pure _
  case rz =>
    exact (number_faultsIn src _).bind fun _ =>
      (ReadFaultsIn.lift (Transform.rotationZ_faultsIn _)).bind fun _ => .pure _
  case s =>
    refine (number_faultsIn src _).bind fun _ => (numberOpt_faultsIn src).bind fun y => ?_
    cases y with
    | none => exact .pure _
    | some _ => exact (number_faultsIn src _).bind fun _ => .pure _
  case fx | fy | fz | random => exact .pure _
  case m => exact (numbers_faultsIn src _ _).bind fun _ => .pure _
  case blend =>
    exact (colour_faultsIn src _).bind fun _ =>
      (ReadFaultsIn.lift (src.recolour_faultsIn _ _)).bind fun _ =>
        (number_faultsIn src _).bind fun _ => .pure _
  case color =>
    refine (colourOpt_faultsIn src).bind fun t => ?_
    cases t with
    | some _ => exact (absolute_faultsIn src _).bind fun _ => .pure _
    | none =>
      refine take_faultsIn.bind fun next => ?_
      cases next with
      | some _ => exact .ite (.pure _) (.throw (src.fault_within _))
      | none => exact .throw (src.fault_within _)

theorem command_faultsIn (d : Delta) (w : OpWord) :
    ReadFaultsIn (Fault.Within [.script]) (command src d w) := by
  unfold command
  cases w with
  | hex h => exact (absolute_faultsIn src _).bind fun _ => .pure _
  | star =>
    -- a colour and a strength, or a channel and two numbers
    refine (colourOpt_faultsIn src).bind fun t => ?_
    cases t with
    | some _ =>
      exact (ReadFaultsIn.lift (src.recolour_faultsIn _ _)).bind fun _ =>
        (number_faultsIn src _).bind fun _ => .pure _
    | none =>
      refine take_faultsIn.bind fun next => ?_
      cases next with
      | some _ =>
        exact .ite ((number_faultsIn src _).bind fun _ => (number_faultsIn src _).bind fun _ =>
          .pure _) (.throw (src.fault_within _))
      | none => exact .throw (src.fault_within _)
  | name n =>
    exact .ite ((absolute_faultsIn src _).bind fun _ => .pure _) (named_faultsIn src d n)
  | _ => exact .throw (src.fault_within _)

theorem commandsFrom_faultsIn :
    ∀ (fuel : Nat) (d : Delta), ReadFaultsIn (Fault.Within [.script]) (commandsFrom src fuel d) := by
  intro fuel
  induction fuel with
  | zero => intro d; exact ReadFaultsIn.pure _
  | succ fuel ih =>
    intro d
    unfold commandsFrom
    refine take_faultsIn.bind fun w => ?_
    split
    · exact ReadFaultsIn.pure _
    · exact (command_faultsIn src d _).bind fun d' => ih d'

/-- **An operator text is read, or refused as a fault of the script,** or for a rotation by an
infinite angle. -/
theorem read_faultsIn (text : String) (lookup : String → Option String) (pool : Pool) :
    FaultsIn (Fault.Within [.script]) (read text lookup pool) := by
  unfold read
  refine FaultsIn.bind (OpWord.splitFrom_faultsIn _ _) fun words => ?_
  exact FaultsIn.bind (commandsFrom_faultsIn _ _ _ _) fun _ => FaultsIn.ok _

end Delta

/-! ## Compiling -/

theorem FaultsIn.mapM {α β : Type} {P : Fault → Prop} {g : α → Except Fault β}
    (h : ∀ a, FaultsIn P (g a)) : ∀ l : List α, FaultsIn P (l.mapM g) := by
  intro l
  induction l with
  | nil => exact FaultsIn.ok _
  | cons a l ih =>
    rw [List.mapM_cons]
    exact FaultsIn.bind (h a) fun b => FaultsIn.bind ih fun bs => FaultsIn.ok _

/-- A term is compiled, or its operator text is refused. -/
theorem Draft.node_faultsIn (d : Draft) (vars : Variables) (t : Script.Term) :
    FaultsIn (Fault.Within [.script]) (d.node vars t) := by
  cases t with
  | transform count ops _ => exact FaultsIn.map _ (Delta.read_faultsIn _ _ _)
  | reference name option param => exact FaultsIn.ok _

/-- **Statements are compiled, or refused as a fault of the script,** or with a numeric fault of
a setting or an operator text. -/
theorem Draft.compileBody_faultsIn (vars : Variables) (rule : Nat) (picks : List Script.Branch)
    (nodes : List Node) (ss : List Script.Statement) (d : Draft) :
    (Draft.compileBody vars rule picks nodes ss d).FaultsIn (Fault.Within [.script]) := by
  fun_induction Draft.compileBody vars rule picks nodes ss d with
  | case1 => exact Outcome.faultsIn_done _
  | case2 _ _ _ _ _ _ _ ih => exact ih
  | case3 _ _ _ _ _ _ _ ih => exact (Settings.set_faultsIn _ _ _).andThen fun s => ih s
  | case4 _ _ _ _ _ _ _ _ _ ih₂ ih₁ =>
    -- each variant of the rule is compiled from the draft the one before it left
    refine Outcome.FaultsIn.andThen ?_ ih₁
    refine Outcome.FaultsIn.foldl (fun acc x hacc => ?_) _ _ (Outcome.faultsIn_done _)
    obtain ⟨w, bs⟩ := x
    refine hacc.andThen fun d => ?_
    split
    exact ih₂ bs d _ _
  | case5 _ _ _ _ _ _ _ _ ih => exact ih
  | case6 _ _ _ d _ _ f hf => exact Outcome.faultsIn_failed _ (Draft.node_faultsIn d _ _ f hf)
  | case7 _ _ d _ _ _ _ _ hns ih =>
    rw [Draft.mapM_node_attach] at hns
    rw [hns]
    exact ih
  | case8 _ _ d _ _ _ _ f hf =>
    rw [Draft.mapM_node_attach] at hf
    rw [hf]
    exact Outcome.faultsIn_failed _ (FaultsIn.mapM (Draft.node_faultsIn d _) _ f hf)
  | case9 _ _ _ _ _ ih => exact ih

namespace Structure

/-- A compilation is refused as the overrides are, as a fault of the script, or with a numeric
fault. -/
theorem compile_faultsIn {P : Fault → Prop} (st : Structure) (script : String) (seed : Int)
    (hscript : ∀ f, f.Within [.script] → P f) (hover : (Settings.ofOverrides st.overrides).FaultsIn P) :
    (st.compile script seed).FaultsIn P := by
  unfold compile
  split
  · rename_i f hf
    exact Outcome.faultsIn_failed _ (hscript f (Script.parse_faultsIn script f hf))
  · refine hover.andThen fun s => ?_
    dsimp only
    split
    · rename_i f hf
      exact Outcome.faultsIn_some _ _ (hscript f (Draft.compileBody_faultsIn _ _ _ _ _ _ f hf))
    · exact Outcome.faultsIn_mk _ _

/-- A structure made from overrides and a script fails as the overrides or the compilation do. -/
theorem ofScript_faultsIn {P : Fault → Prop} (overrides : List (String × Json)) (script : String)
    (seed : Int) (hscript : ∀ f, f.Within [.script] → P f)
    (hover : (Settings.ofOverrides overrides).FaultsIn P) :
    (ofScript overrides script seed).FaultsIn P :=
  (hover.map _).andThen_state fun _ => compile_faultsIn _ script seed hscript hover

end Structure

/-! ## Building -/

namespace Walk

variable {σ : Type} {sc : Scene} {obs : Observer σ} {P : Fault → Prop}

/-- The faults that the steps of a walk can end with all satisfy `P`: reading the delta of a
block, placing an object, and a fallback that names no rule. -/
structure StepFaults (sc : Scene) (obs : Observer σ) (P : Fault → Prop) : Prop where
  delta : ∀ b, FaultsIn P (sc.deltaOf b)
  place : ∀ fr ref p, FaultsIn P (place sc obs fr ref p)
  fallback : ∀ label name, P (.missingFallback label name)

/-- Placing an object fails only as the test of its size or the observer may. -/
theorem place_faultsIn (hadmits : ∀ t, FaultsIn P (sc.admits t))
    (hsee : ∀ w s tw, FaultsIn P (obs.see w s tw)) (fr : Frame) (ref : Reference) (p : Progress σ) :
    FaultsIn P (place sc obs fr ref p) := by
  intro f h
  simp only [place, bind, Except.bind, pure, Except.pure] at h
  split at h
  · cases h
  · -- below the limit: the test of its size, then the observer
    split at h
    · rename_i e he
      cases h
      exact hadmits _ f he
    · split at h
      · cases h
      · split at h
        · rename_i e he
          cases h
          exact hsee _ _ _ f he
        · -- the observer answered: the walk goes on or stops, without fault
          split at h
          · cases h
          · split at h <;> cases h

/-- A reference fails only as its object or the rules at its fuel may. -/
theorem reference_faultsIn (hP : StepFaults sc obs P) {n : Nat}
    (hrule : ∀ (fr : Frame) i fb (p : Progress σ), FaultsIn P (rule sc obs n fr i fb p))
    (fr : Frame) (ref : Reference) (p : Progress σ) : FaultsIn P (reference sc obs n fr ref p) := by
  intro f h
  rw [reference] at h
  rcases hf : sc.grammar.find fr.rule ref.label p.twister with ⟨_ | i, tw⟩
  · rw [hf] at h
    exact hP.place _ _ _ f h
  · rw [hf] at h
    dsimp only at h
    split at h
    · cases h
    · split at h
      · split at h
        · cases h
        · cases h
        · rename_i hr
          cases h
          exact hrule _ _ _ _ f hr
      · cases h

/-- Repeats of a block fail only as the rest of the chain may. -/
theorem repeated_faultsIn {n : Nat} {bs : List Block} {target : Option Reference}
    (hchain : ∀ (fr : Frame) (p : Progress σ), FaultsIn P (chain sc obs n fr bs target p))
    (d : Delta) :
    ∀ (count : Nat) (fr : Frame) (last : Flow) (p : Progress σ),
      FaultsIn P (repeated sc obs n fr d bs target count last p) := by
  intro count
  induction count with
  | zero =>
    intro fr last p f h
    rw [repeated] at h
    cases h
  | succ count ih =>
    intro fr last p f h
    rw [repeated] at h
    dsimp only at h
    split at h
    · cases h
    · exact ih _ _ _ f h
    · rename_i hc
      cases h
      exact hchain _ _ f hc

/-- A chain fails only as its blocks' deltas or the references at its fuel may. -/
theorem chain_faultsIn (hP : StepFaults sc obs P) {n : Nat}
    (href : ∀ (fr : Frame) ref (p : Progress σ), FaultsIn P (reference sc obs n fr ref p)) :
    ∀ (bs : List Block) (fr : Frame) (target : Option Reference) (p : Progress σ),
      FaultsIn P (chain sc obs n fr bs target p) := by
  intro bs
  induction bs with
  | nil =>
    intro fr target p f h
    cases target with
    | none =>
      rw [chain] at h
      cases h
    | some ref =>
      rw [chain] at h
      exact href fr ref p f h
  | cons b rest ih =>
    intro fr target p f h
    rw [chain] at h
    split at h
    · rename_i hd
      cases h
      exact hP.delta b f hd
    · split at h
      · cases h
      · exact repeated_faultsIn (fun fr p => ih fr target p) _ _ _ _ _ f h

/-- A body fails only as the chains at its fuel may. -/
theorem body_faultsIn {n : Nat}
    (hchain : ∀ bs (fr : Frame) target (p : Progress σ), FaultsIn P (chain sc obs n fr bs target p)) :
    ∀ (cs : List Chain) (fr : Frame) (p : Progress σ), FaultsIn P (body sc obs n fr cs p) := by
  intro cs
  induction cs with
  | nil =>
    intro fr p f h
    rw [body] at h
    cases h
  | cons c rest ih =>
    intro fr p f h
    rw [body] at h
    split at h
    · exact ih _ _ f h
    · exact hchain _ _ _ _ f h

/-- A rule at fuel `n + 1` fails only as the bodies and rules at fuel `n` may, or for a
fallback that names no rule. -/
theorem rule_succ_faultsIn (hP : StepFaults sc obs P) {n : Nat}
    (hbody : ∀ cs (fr : Frame) (p : Progress σ), FaultsIn P (body sc obs n fr cs p))
    (hrule : ∀ (fr : Frame) i fb (p : Progress σ), FaultsIn P (rule sc obs n fr i fb p))
    (fr : Frame) (i : Nat) (fb : Bool) (p : Progress σ) :
    FaultsIn P (rule sc obs (n + 1) fr i fb p) := by
  intro f h
  rw [rule] at h
  split at h
  · cases h
  · dsimp only at h
    split at h
    · cases h
    · split at h
      · split at h
        · cases h
        · exact hbody _ _ _ f h
      · split at h
        · split at h
          · cases h
          · split at h
            · cases h
              exact hP.fallback _ _
            · exact hrule _ _ _ _ f h
        · cases h

/-- **A walk fails only as its steps may**: reading the delta of a block, placing an object,
or a fallback that names no rule. -/
theorem rule_faultsIn (hP : StepFaults sc obs P) :
    ∀ (n : Nat) (fr : Frame) i fb (p : Progress σ), FaultsIn P (rule sc obs n fr i fb p) := by
  intro n
  induction n with
  | zero =>
    intro fr i fb p f h
    rw [rule] at h
    cases h
  | succ n ih =>
    -- at fuel `n` a reference walks rules, a chain references, and a body chains
    exact rule_succ_faultsIn hP (body_faultsIn (chain_faultsIn hP (reference_faultsIn hP ih))) ih

end Walk

/-- The cube of a size overflows only for a finite size. -/
theorem Settings.cube_faultsIn (ks : List FaultKind) (x : Float) :
    FaultsIn (Fault.Within ks) (Settings.cube x) := by
  unfold Settings.cube
  dsimp only
  split
  · exact FaultsIn.error (Fault.within_of_isNumeric _ rfl)
  · exact FaultsIn.ok _

/-- The test of an object's size fails only as the cubes of the sizes may. -/
theorem Scene.admits_faultsIn {P : Fault → Prop} (sc : Scene) (hs : FaultsIn P sc.smallest)
    (hl : FaultsIn P sc.largest) (t : Transform) : FaultsIn P (sc.admits t) := by
  unfold Scene.admits
  refine FaultsIn.bind hs fun lo => ?_
  split
  · exact FaultsIn.bind hl fun _ => FaultsIn.ok _
  · exact FaultsIn.ok _

/-- The delta of a block for a build is the compiled one, or read again from its text. -/
theorem Scene.deltaOf_faultsIn (sc : Scene) (b : Block) :
    FaultsIn (Fault.Within [.script]) (sc.deltaOf b) := by
  unfold Scene.deltaOf
  split
  · exact Delta.read_faultsIn _ _ _
  · exact FaultsIn.ok _

/-! ### Observers -/

/-- A colour can be shown unless its hue is infinite or NaN. -/
theorem Hsba.turns_faultsIn (ks : List FaultKind) (x : Float) : FaultsIn (Fault.Within ks) (Hsba.turns x) := by
  unfold Hsba.turns
  -- a NaN or infinite hue is refused with a numeric fault
  split
  · exact FaultsIn.error (Fault.within_of_isNumeric _ rfl)
  · split
    · exact FaultsIn.error (Fault.within_of_isNumeric _ rfl)
    · exact FaultsIn.ok _

theorem Paint.toRgba_faultsIn (ks : List FaultKind) (c : Paint) (g : Twister) :
    FaultsIn (Fault.Within ks) (c.toRgba g) := by
  unfold Paint.toRgba
  split
  · exact FaultsIn.ok _
  · exact FaultsIn.map _ (FaultsIn.bind (Hsba.turns_faultsIn ks _) fun _ => FaultsIn.ok _)

/-- **A recorder fails only to show a colour**, with a numeric fault. -/
theorem Recorder.see_faultsIn (ks : List FaultKind) (r : Recorder) (rec : Record) (s : Sighting)
    (tw : Twister) : FaultsIn (Fault.Within ks) (r.observer.see rec s tw) := by
  refine FaultsIn.bind ?_ fun _ => FaultsIn.ok _
  unfold Recorder.colourOf
  split
  · exact FaultsIn.map _ (Paint.toRgba_faultsIn ks _ _)
  · exact FaultsIn.ok _
  · exact FaultsIn.ok _

namespace Structure

/-- **A build fails only as a fault of the script or of the build, or with a numeric fault**,
when its observer does. -/
theorem build_faultsIn {σ : Type} (st : Structure) (obs : Observer σ) (init : σ)
    (hsee : ∀ w s tw, FaultsIn (Fault.Within [.script, .build]) (obs.see w s tw)) :
    FaultsIn (Fault.Within [.script, .build]) (st.build obs init) := by
  unfold build
  split
  · exact FaultsIn.error (Fault.within_of_kind (by simp [Fault.kind]))
  · rename_i g _
    -- the sizes and the deltas of the scene, the fallbacks of its rules, and the observer
    have hcube := Settings.cube_faultsIn [.script, .build]
    have hsteps : Walk.StepFaults (Scene.of g st.settings st.vars) obs (Fault.Within [.script, .build]) :=
      ⟨fun b => (Scene.deltaOf_faultsIn _ b).mono fun _ => Fault.Within.mono (by simp),
        Walk.place_faultsIn (Scene.admits_faultsIn _ (hcube _) (hcube _)) hsee,
        fun _ _ => Fault.within_of_kind (by simp [Fault.kind])⟩
    rw [InPlace.run_eq_walk]
    exact FaultsIn.map _ (Walk.rule_faultsIn hsteps _ _ _ _ _)

end Structure

/-! ## The commands -/

namespace Command

/-- What a command on a script may end with: status 0 or 2, giving back no fault, or status 1,
giving back a numeric fault. -/
def Report.CrashesOnlyNumeric (r : Report) : Prop :=
  ((r.exit = 0 ∨ r.exit = 2) ∧ r.crash = none) ∨ (r.exit = 1 ∧ ∃ f, r.crash = some f ∧ f.isNumeric = true)

/-- A command ended by a fault of the script or of the build exits with status 2; one ended by
a numeric fault gives it back. -/
theorem failed_crashesOnlyNumeric (out : String) (notices : List Notice) {f : Fault}
    (hf : f.Within [.script, .build]) : (failed out notices f).CrashesOnlyNumeric := by
  unfold failed
  split
  · exact .inl ⟨.inr rfl, rfl⟩
  · rename_i hk
    -- neither of the script nor of the build, so numeric
    refine .inr ⟨rfl, f, rfl, hf.resolve_left fun hmem => hk ?_⟩
    simp only [List.mem_cons, List.not_mem_nil, or_false] at hmem
    rcases hmem with h | h <;> simp [h]

/-- A structure made from no overrides fails only as a fault of the script, or numeric. -/
theorem ofScript_nil_faultsIn (script : String) (seed : Int) :
    (Structure.ofScript [] script seed).FaultsIn (Fault.Within [.script, .build]) :=
  Structure.ofScript_faultsIn [] script seed (fun _ => Fault.Within.mono (by simp))
    (Outcome.faultsIn_done _)

theorem counter_faultsIn (w : List (String × Nat)) (s : Sighting) (tw : Twister) :
    FaultsIn (Fault.Within [.script, .build]) (counter.see w s tw) :=
  FaultsIn.ok _

/-- `validate` exits with status 0 or 2, or gives back a numeric fault. -/
theorem validate_crashesOnlyNumeric (script : String) (seed : Int) :
    (validate script seed).CrashesOnlyNumeric := by
  unfold validate
  dsimp only
  split
  · rename_i f hf
    exact failed_crashesOnlyNumeric _ _ (ofScript_nil_faultsIn _ seed f hf)
  · split
    · rename_i f hf
      exact failed_crashesOnlyNumeric _ _ (Structure.build_faultsIn _ _ _ counter_faultsIn f hf)
    · -- a build that places no object is a fault of the script
      split
      · exact failed_crashesOnlyNumeric _ _ (Fault.within_of_kind (by simp [Fault.kind]))
      · exact .inl ⟨.inl rfl, rfl⟩

/-- `build` exits with status 0 or 2, or gives back a numeric fault. -/
theorem build_crashesOnlyNumeric (script : String) (seed : Int) :
    (build script seed).CrashesOnlyNumeric := by
  unfold build
  dsimp only
  split
  · rename_i f hf
    exact failed_crashesOnlyNumeric _ _ (ofScript_nil_faultsIn _ seed f hf)
  · split
    · rename_i f hf
      exact failed_crashesOnlyNumeric _ _
        (Structure.build_faultsIn _ _ _ (Recorder.see_faultsIn _ Recorder.snapshots) f hf)
    · exact .inl ⟨.inl rfl, rfl⟩

end Command

/-- **Making and building a structure end only with reported or numeric faults.** A structure
made from overrides and a script is refused only as a fault of the settings or of the script,
or with a numeric fault; a build of any structure with a recorder fails only as a fault of the
script or of the build, or with a numeric fault. So the commands on a script exit with status 0
or 2, or give back a numeric fault: the conversions of numbers that no stage checks are the
only faults that are not reported as the program's own. -/
theorem faults_reported_or_numeric (overrides : List (String × Json)) (script : String) (seed : Int) :
    (∀ f, (Structure.ofScript overrides script seed).fault = some f → f.Within [.config, .script]) ∧
    (∀ (st : Structure) (r : Recorder) (f : Fault), st.record r = .error f → f.Within [.script, .build]) ∧
    (Command.validate script seed).CrashesOnlyNumeric ∧ (Command.build script seed).CrashesOnlyNumeric := by
  refine ⟨?_, ?_, Command.validate_crashesOnlyNumeric script seed,
    Command.build_crashesOnlyNumeric script seed⟩
  · exact Structure.ofScript_faultsIn overrides script seed (fun _ => Fault.Within.mono (by simp))
      ((Settings.ofOverrides_faultsIn overrides).mono fun _ => Fault.Within.mono (by simp))
  · intro st r f h
    exact Structure.build_faultsIn st _ _ (Recorder.see_faultsIn _ r) f h

/-- A depth too large to have an integer part, where the conversion is not checked: `validate`
ends as every command on a script does. -/
theorem infinite_depth_validate_crashesOnlyNumeric :
    (Command.validate "set maxdepth 1e400 box" 0).CrashesOnlyNumeric :=
  (faults_reported_or_numeric [] "set maxdepth 1e400 box" 0).2.2.1

end ShapeGrammar
